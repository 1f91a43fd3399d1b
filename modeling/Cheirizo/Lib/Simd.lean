import Mathlib.Algebra.Ring.Nat
import Mathlib.Data.Fintype.Basic
import Mathlib.Tactic.Common
import Mathlib.Tactic.FinCases

/-!
# Vector registers

The vector instructions of x86-64 (SSE and AVX2) and of AArch64 (NEON), as far as image code uses
them. On x86 a register is untyped: it is modelled by its bytes, and an instruction on wider lanes
reads and writes them as such. Almost every 256-bit instruction works on the two 128-bit halves
separately, so a 256-bit register is a pair. On AArch64 registers are typed by their lanes.

## Main definitions

* `M128`, `M256` — registers, with `word16`, `word32` and back
* `packsEpi32`, `packusEpi16`, `vqmovunS16` — narrowing with saturation

## Main results

* `word32_ofWord32`, `word16_ofWord16` — what was written to wide lanes is read from them
* `saturateU8_saturateI16`, `saturateU8_toInt16` — narrowing keeps a value that fits a byte
* `min_max_eq_clamp`, `toInt32_toUInt8_clamp` — clamping, and that its result fits a byte
-/

namespace Cheirizo

namespace Simd

/-! ### Registers -/

/-- A 128-bit register, by its bytes, the least significant one first. -/
abbrev M128 := Fin 16 → UInt8

/-- A 256-bit register, by its halves. -/
structure M256 where
  lo : M128
  hi : M128

/-! Numbers of lanes, for indices modulo them. -/

instance neZero_four : NeZero 4 := ⟨by decide⟩

instance neZero_eight : NeZero 8 := ⟨by decide⟩

instance neZero_sixteen : NeZero 16 := ⟨by decide⟩

/-- A 16-bit lane. -/
def word16 (a : M128) (i : Fin 8) : UInt16 :=
  ⟨(a ⟨2 * i + 1, by omega⟩).toBitVec ++ (a ⟨2 * i, by omega⟩).toBitVec⟩

/-- The lower byte of a 16-bit lane. -/
def lowByte (i : Fin 8) : Fin 16 := ⟨2 * i, by omega⟩

/-- The upper byte of a 16-bit lane. -/
def highByte (i : Fin 8) : Fin 16 := ⟨2 * i + 1, by omega⟩

/-- A 32-bit lane. -/
def word32 (a : M128) (i : Fin 4) : Int32 :=
  .ofBitVec ((a ⟨4 * i + 3, by omega⟩).toBitVec ++ (a ⟨4 * i + 2, by omega⟩).toBitVec ++
    (a ⟨4 * i + 1, by omega⟩).toBitVec ++ (a ⟨4 * i, by omega⟩).toBitVec)

/-- A register from its eight words. -/
def ofWord16 (f : Fin 8 → UInt16) : M128 := fun i =>
  ⟨(f ⟨i / 2, by omega⟩).toBitVec.extractLsb' (8 * (i % 2)) 8⟩

/-- A register from its four double words. -/
def ofWord32 (f : Fin 4 → Int32) : M128 := fun i =>
  ⟨(f ⟨i / 4, by omega⟩).toBitVec.extractLsb' (8 * (i % 4)) 8⟩

/-- The bytes of a word, put together. -/
theorem append_extract32 (x : BitVec 32) :
    x.extractLsb' 24 8 ++ x.extractLsb' 16 8 ++ x.extractLsb' 8 8 ++ x.extractLsb' 0 8 = x := by
  rw [BitVec.extractLsb'_append_extractLsb'_eq_extractLsb' (show 24 = 16 + 8 by rfl),
    BitVec.extractLsb'_append_extractLsb'_eq_extractLsb' (show 16 = 8 + 8 by rfl)]
  exact BitVec.extractLsb'_append_extractLsb'

@[simp] theorem word16_ofWord16 (f : Fin 8 → UInt16) : word16 (ofWord16 f) = f := by
  funext i
  fin_cases i <;> exact congrArg UInt16.ofBitVec BitVec.extractLsb'_append_extractLsb'

@[simp] theorem word32_ofWord32 (f : Fin 4 → Int32) : word32 (ofWord32 f) = f := by
  funext i
  fin_cases i <;> exact congrArg Int32.ofBitVec (append_extract32 _)

theorem zero_append (n : ℕ) (b : BitVec 8) : 0#n ++ b = b.setWidth (n + 8) := by
  apply BitVec.eq_of_getLsbD_eq
  intro k hk
  rw [BitVec.getLsbD_append, BitVec.getLsbD_setWidth, decide_eq_true hk, Bool.true_and,
    BitVec.getLsbD_zero]
  split
  · rfl
  · exact (BitVec.getLsbD_of_ge b k (by omega)).symm

/-- A lane with zeros above its lowest byte. -/
theorem word32_zeroExtend {a : M128} {i : Fin 4} (h1 : a ⟨4 * i + 1, by omega⟩ = 0)
    (h2 : a ⟨4 * i + 2, by omega⟩ = 0) (h3 : a ⟨4 * i + 3, by omega⟩ = 0) :
    word32 a i = (a ⟨4 * i, by omega⟩).toUInt32.toInt32 := by
  rw [word32, h1, h2, h3]
  exact congrArg Int32.ofBitVec (zero_append 24 _)

/-- A lane with a zero above its lowest byte. -/
theorem word16_zeroExtend {a : M128} {i : Fin 8} (h1 : a ⟨2 * i + 1, by omega⟩ = 0) :
    word16 a i = (a ⟨2 * i, by omega⟩).toUInt16 := by
  rw [word16, h1]
  exact congrArg UInt16.ofBitVec (zero_append 8 _)

/-! ### SSE and AVX2 -/

section X86

/-- `_mm_setzero_si128`. -/
def mmSetzero : M128 := fun _ => 0

/-- `_mm_set1_epi32`: one double word four times. -/
def mmSet1Epi32 (c : Int32) : M128 := ofWord32 fun _ => c

/-- `_mm_set1_epi16`: one word eight times. -/
def mmSet1Epi16 (c : UInt16) : M128 := ofWord16 fun _ => c

/-- Select bytes. A selector with its high bit set gives zero. -/
def mmShuffleEpi8 (a mask : M128) : M128 := fun i =>
  if 128 ≤ mask i then 0 else a (Fin.ofNat 16 (mask i).toNat)

/-- `_mm_unpacklo_epi8`: the bytes of the low halves in turn. -/
def mmUnpackloEpi8 (a b : M128) : M128 := fun i =>
  if i.val % 2 = 0 then a ⟨i / 2, by omega⟩ else b ⟨i / 2, by omega⟩

/-- `_mm_unpackhi_epi8`: the bytes of the high halves in turn. -/
def mmUnpackhiEpi8 (a b : M128) : M128 := fun i =>
  if i.val % 2 = 0 then a ⟨8 + i / 2, by omega⟩ else b ⟨8 + i / 2, by omega⟩

/-- `_mm_unpacklo_epi16`: the words of the low halves in turn. -/
def mmUnpackloEpi16 (a b : M128) : M128 := fun i =>
  if i.val / 2 % 2 = 0 then a ⟨2 * (i / 4) + i % 2, by omega⟩
  else b ⟨2 * (i / 4) + i % 2, by omega⟩

/-- `_mm_unpackhi_epi16`: the words of the high halves in turn. -/
def mmUnpackhiEpi16 (a b : M128) : M128 := fun i =>
  if i.val / 2 % 2 = 0 then a ⟨8 + 2 * (i / 4) + i % 2, by omega⟩
  else b ⟨8 + 2 * (i / 4) + i % 2, by omega⟩

/-- `_mm_unpacklo_epi32`: the double words of the low halves in turn. -/
def mmUnpackloEpi32 (a b : M128) : M128 := fun i =>
  if i.val / 4 % 2 = 0 then a ⟨4 * (i / 8) + i % 4, by omega⟩
  else b ⟨4 * (i / 8) + i % 4, by omega⟩

/-- `_mm_add_epi16`, which wraps around. -/
def mmAddEpi16 (a b : M128) : M128 := ofWord16 fun i => word16 a i + word16 b i

/-- `_mm_srli_epi16`: zeros come in. -/
def mmSrliEpi16 (a : M128) (count : UInt16) : M128 := ofWord16 fun i => word16 a i >>> count

/-- Sums of neighbours, of `a` in the lower half and of `b` in the upper. -/
def mmHaddEpi16 (a b : M128) : M128 := ofWord16 fun i =>
  if h : i.val < 4 then word16 a ⟨2 * i, by omega⟩ + word16 a ⟨2 * i + 1, by omega⟩
  else word16 b ⟨2 * (i - 4), by omega⟩ + word16 b ⟨2 * (i - 4) + 1, by omega⟩

/-- `_mm_add_epi32`, which wraps around. -/
def mmAddEpi32 (a b : M128) : M128 := ofWord32 fun i => word32 a i + word32 b i

/-- `_mm_mullo_epi32`: the low half of each product. -/
def mmMulloEpi32 (a b : M128) : M128 := ofWord32 fun i => word32 a i * word32 b i

/-- `_mm_srai_epi32`: the sign comes in. -/
def mmSraiEpi32 (a : M128) (count : Int32) : M128 := ofWord32 fun i => word32 a i >>> count

/-- `_mm_max_epi32`, of signed numbers. -/
def mmMaxEpi32 (a b : M128) : M128 := ofWord32 fun i => max (word32 a i) (word32 b i)

/-- `_mm_min_epi32`, of signed numbers. -/
def mmMinEpi32 (a b : M128) : M128 := ofWord32 fun i => min (word32 a i) (word32 b i)

/-- The nearest signed 16-bit value. -/
def saturateI16 (x : Int32) : Int16 :=
  if x < -32768 then -32768 else if 32767 < x then 32767 else x.toInt16

/-- The nearest unsigned byte. -/
def saturateU8 (x : Int16) : UInt8 :=
  if x < 0 then 0 else if 255 < x then 255 else x.toInt8.toUInt8

theorem forall_byte {P : UInt8 → Prop} (h : ∀ n : Fin 256, P (UInt8.ofNat n)) (b : UInt8) :
    P b := by
  have hb := h ⟨b.toNat, b.toNat_lt⟩
  rwa [UInt8.ofNat_toNat] at hb

/-- A value that fits a byte is kept by narrowing in two steps. -/
theorem saturateU8_saturateI16 (b : UInt8) :
    saturateU8 (saturateI16 b.toUInt32.toInt32).toUInt16.toInt16 = b := by
  revert b
  refine forall_byte ?_
  decide +kernel

theorem saturateU8_toInt16 (b : UInt8) : saturateU8 b.toUInt32.toInt32.toInt16 = b := by
  revert b
  refine forall_byte ?_
  decide +kernel

theorem saturateU8_toUInt16 (b : UInt8) : saturateU8 b.toUInt16.toInt16 = b := by
  revert b
  refine forall_byte ?_
  decide +kernel

/-- The nearest value between two bounds. -/
def clamp (x lo hi : Int32) : Int32 := if x < lo then lo else if hi < x then hi else x

/-- Vector code clamps by a maximum and a minimum. -/
theorem min_max_eq_clamp (x : Int32) : min (max x 0) 255 = clamp x 0 255 := by
  have hmax : max x 0 = if x ≤ 0 then 0 else x := rfl
  have hmin : ∀ y : Int32, min y 255 = if y ≤ 255 then y else 255 := fun _ => rfl
  rw [hmin, hmax, clamp]
  grind

/-- A value from 0 to 255 is that of a byte. -/
theorem toInt32_toUInt8 {x : Int32} (h0 : 0 ≤ x) (h1 : x ≤ 255) :
    x.toUInt32.toUInt8.toUInt32.toInt32 = x := by
  have hnonneg : 0 ≤ x.toBitVec.toInt := Int32.le_iff_toInt_le.mp h0
  have hle : x.toBitVec.toInt ≤ 255 := Int32.le_iff_toInt_le.mp h1
  have hnat : x.toBitVec.toNat ≤ 255 := by
    rw [BitVec.toInt_eq_toNat_cond] at hnonneg hle
    have hlt := x.toBitVec.isLt
    split at hle
    · omega
    · rw [if_neg ‹_›] at hnonneg
      omega
  have hbits : x.toUInt32.toUInt8.toUInt32.toInt32.toBitVec =
      (x.toBitVec.setWidth 8).setWidth 32 := rfl
  apply Int32.toBitVec_inj.mp
  apply BitVec.eq_of_toNat_eq
  rw [hbits, BitVec.toNat_setWidth, BitVec.toNat_setWidth]
  omega

theorem toInt32_toUInt8_clamp (x : Int32) :
    (clamp x 0 255).toUInt32.toUInt8.toUInt32.toInt32 = clamp x 0 255 := by
  refine toInt32_toUInt8 ?_ ?_
  · rw [clamp]
    grind
  · rw [clamp]
    grind

/-- `_mm_packs_epi32`: the first register goes to the low half, and what does not fit a word is cut
off at its bounds. -/
def mmPacksEpi32 (a b : M128) : M128 := ofWord16 fun i =>
  if h : i.val < 4 then (saturateI16 (word32 a ⟨i, h⟩)).toUInt16
  else (saturateI16 (word32 b ⟨i - 4, by omega⟩)).toUInt16

/-- `_mm_packus_epi16`: the words are read as signed, and cut off at the bounds of a byte. -/
def mmPackusEpi16 (a b : M128) : M128 := fun i =>
  if h : i.val < 8 then saturateU8 (word16 a ⟨i, h⟩).toInt16
  else saturateU8 (word16 b ⟨i - 8, by omega⟩).toInt16

/-- An instruction on both halves. -/
def both (f : M128 → M128 → M128) (a b : M256) : M256 := ⟨f a.lo b.lo, f a.hi b.hi⟩

/-- One value in both halves. -/
def splat (a : M128) : M256 := ⟨a, a⟩

/-- Eight bytes of a register. -/
def quadword (a : M256) (k : ℕ) (j : Fin 8) : UInt8 :=
  if k < 2 then a.lo (Fin.ofNat 16 (8 * k + j)) else a.hi (Fin.ofNat 16 (8 * (k - 2) + j))

/-- Select quadwords, two bits of the control for each. -/
def mm256Permute4x64 (a : M256) (control : ℕ) : M256 where
  lo i := quadword a (control / 4 ^ (i.val / 8) % 4) ⟨i % 8, by omega⟩
  hi i := quadword a (control / 4 ^ (2 + i.val / 8) % 4) ⟨i % 8, by omega⟩

/-- Sixteen bytes of memory. -/
def mmLoadu (memory : List UInt8) (address : ℕ) : M128 := fun i => memory.getD (address + i) 0

/-- `_mm256_loadu_si256`. -/
def mm256Loadu (memory : List UInt8) (address : ℕ) : M256 where
  lo := mmLoadu memory address
  hi := mmLoadu memory (address + 16)

end X86

/-! ### NEON -/

section Neon

variable {α β : Type}

/-- Thirty-two bytes of memory, taken apart by their position modulo four. -/
def vld4U8 (memory : List UInt8) (address channel : ℕ) : Fin 8 → UInt8 := fun i =>
  memory.getD (address + 4 * i + channel) 0

/-- `vld1q_u8`. -/
def vld1qU8 (memory : List UInt8) (address : ℕ) : Fin 16 → UInt8 := fun i =>
  memory.getD (address + i) 0

/-- `vdupq_n`: one value in every lane. -/
def vdupq {n : ℕ} (c : α) : Fin n → α := fun _ => c

/-- An instruction on the lanes of two registers. -/
def lanewise {n : ℕ} (f : α → α → α) (a b : Fin n → α) : Fin n → α := fun i => f (a i) (b i)

/-- A conversion of the lanes of a register. -/
def convertLanes {n : ℕ} (f : α → β) (a : Fin n → α) : Fin n → β := fun i => f (a i)

/-- `vget_low`: the lower half of the lanes. -/
def vgetLow {n : ℕ} (a : Fin (n + n) → α) : Fin n → α := fun i => a ⟨i, by omega⟩

/-- `vget_high`: the upper half of the lanes. -/
def vgetHigh {n : ℕ} (a : Fin (n + n) → α) : Fin n → α := fun i => a ⟨n + i, by omega⟩

/-- `vcombine`: the first argument goes to the lower half. -/
def vcombine {n : ℕ} (a b : Fin n → α) : Fin (n + n) → α := fun i =>
  if h : i.val < n then a ⟨i, h⟩ else b ⟨i - n, by omega⟩

/-- Multiply and accumulate. -/
def vmlaqS32 {n : ℕ} (a b c : Fin n → Int32) : Fin n → Int32 := fun i => a i + b i * c i

/-- Sums of neighbours, of `a` in the lower half and of `b` in the upper. -/
def vpaddqU16 (a b : Fin 8 → UInt16) : Fin 8 → UInt16 := fun i =>
  if h : i.val < 4 then a ⟨2 * i, by omega⟩ + a ⟨2 * i + 1, by omega⟩
  else b ⟨2 * (i - 4), by omega⟩ + b ⟨2 * (i - 4) + 1, by omega⟩

/-- `vqmovun_s16`: signed lanes, cut off at the bounds of a byte. -/
def vqmovunS16 {n : ℕ} (a : Fin n → Int16) : Fin n → UInt8 := convertLanes saturateU8 a

end Neon

end Simd

end Cheirizo
