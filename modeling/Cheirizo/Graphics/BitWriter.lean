import Cheirizo.Lib.Bits
import Cheirizo.Lib.Emulation

/-!
# Writing parameter sets

`egfx/hardware/vaapi/mod.rs`, `H264BitWriter` and `annex_b_nal`. The VA-API encoder writes the
headers of a stream itself where the driver leaves them out. The writer collects bits in a byte
and pushes the byte when it is full.

What the writer has written is a string of bits, `H264BitWriter.bits`, and each operation puts its
code behind it. A payload then goes through emulation prevention to become a unit.

## Main definitions

* `H264BitWriter` — the writer, with `writeBit`, `writeBits`, `writeUe`, `writeSe`, `finishRbsp`
* `annexBNal` — a payload as a unit of the byte stream
* `Element` — an element of the syntax, written by `H264BitWriter.write` and read by `Element.read`

## Main results

* `readElements_finishRbsp` — the elements that were written are read back
* `annexBNal_eq`, `unescape_annexBNal` — a unit, from which the payload is read back
-/

namespace Cheirizo

namespace Graphics

open AnnexB Bits

/-! ### The writer -/

/-- Whole bytes, and the bits of one that is not full yet. -/
structure H264BitWriter where
  bytes : List UInt8
  current : UInt8
  used : UInt8
  used_lt : used < 8

namespace H264BitWriter

/-- Nothing was written. -/
def default : H264BitWriter :=
  ⟨[], 0, 0, by decide⟩

/-- The first bit of a byte is its highest. -/
def writeBit (w : H264BitWriter) (value : Bool) : H264BitWriter :=
  let current := w.current <<< 1 ||| value.toUInt8
  if hfull : w.used + 1 = 8 then ⟨w.bytes ++ [current], 0, 0, by decide⟩
  else ⟨w.bytes, current, w.used + 1, by have := w.used_lt; grind⟩

/-- The bits of a number from a shift down. -/
def writeBits (w : H264BitWriter) (value : UInt32) : ℕ → H264BitWriter
  | 0 => w
  | shift + 1 =>
    (w.writeBit ((value >>> UInt32.ofNat shift) &&& 1 != 0)).writeBits value shift

/-- A number of zeros. -/
def writeZeros (w : H264BitWriter) : ℕ → H264BitWriter
  | 0 => w
  | n + 1 => (w.writeBit false).writeZeros n

/-- The number of leading zeros of the code number says how many bits it has. -/
def leadingZeros (value : UInt32) : ℕ :=
  32 - value.toNat.size

/-- The code number wraps around for the largest value, and then nothing is written. -/
def writeUe (w : H264BitWriter) (value : UInt32) : H264BitWriter :=
  let codeNum := value + 1
  let bits := 32 - leadingZeros codeNum
  (w.writeZeros (bits - 1)).writeBits codeNum bits

/-- Signed numbers are numbered by size, the positive one of two first. -/
def writeSe (w : H264BitWriter) (value : Int32) : H264BitWriter :=
  let codeNum :=
    if value ≤ 0 then UInt32.ofNat value.toInt.natAbs * 2 else value.toUInt32 * 2 - 1
  w.writeUe codeNum

/-- A full byte is pushed at once. -/
theorem used_toNat_lt (w : H264BitWriter) : w.used.toNat < 8 :=
  UInt8.lt_iff_toNat_lt.mp w.used_lt

theorem used_succ (w : H264BitWriter) : (w.used + 1).toNat = w.used.toNat + 1 := by
  have hused := w.used_toNat_lt
  rw [UInt8.toNat_add]
  exact Nat.mod_eq_of_lt (by show w.used.toNat + 1 < 2 ^ 8; omega)

/-- The bits in the byte are counted. -/
theorem used_writeBit (w : H264BitWriter) (value : Bool) :
    (w.writeBit value).used.toNat = (w.used.toNat + 1) % 8 := by
  have hused := w.used_toNat_lt
  rw [writeBit]
  split
  · rename_i hfull
    have hseven : w.used.toNat + 1 = 8 := by rw [← w.used_succ, hfull]; rfl
    rw [hseven]
    rfl
  · rename_i hfull
    have hne : w.used.toNat + 1 ≠ 8 := by
      rw [← w.used_succ]
      exact fun h => hfull (UInt8.toNat_inj.mp h)
    show (w.used + 1).toNat = _
    rw [w.used_succ]
    omega

/-- Zeros up to the end of the byte. -/
def align (w : H264BitWriter) : H264BitWriter :=
  if w.used = 0 then w else (w.writeBit false).align
termination_by (8 - w.used.toNat) % 8
decreasing_by
  rename_i hne
  have hused := w.used_toNat_lt
  have hpos : w.used.toNat ≠ 0 := fun h => hne (UInt8.toNat_inj.mp h)
  rw [used_writeBit]
  omega

/-- The last one marks where the content ends. -/
def finishRbsp (w : H264BitWriter) : List UInt8 :=
  (w.writeBit true).align.bytes

/-! ### What is written -/

/-- The bits written so far. -/
def bits (w : H264BitWriter) : List Bool :=
  bytesBits w.bytes ++ fixed w.used.toNat w.current.toNat

/-- Nothing has been written. -/
theorem bits_default : default.bits = [] := rfl

/-- A bit is shifted in, and the oldest out. -/
theorem toNat_shifted (current : UInt8) (value : Bool) :
    (current <<< 1 ||| value.toUInt8).toNat = (2 * current.toNat + value.toNat) % 2 ^ 8 := by
  have hall : ∀ n < 256, ∀ value : Bool,
      (UInt8.ofNat n <<< 1 ||| value.toUInt8).toNat = (2 * n + value.toNat) % 2 ^ 8 := by
    decide +kernel
  have h := hall current.toNat current.toNat_lt value
  rwa [UInt8.ofNat_toNat] at h

/-- A bit goes behind what was written. -/
theorem bits_writeBit (w : H264BitWriter) (value : Bool) :
    (w.writeBit value).bits = w.bits ++ [value] := by
  have hused := w.used_toNat_lt
  have hshift : fixed (w.used.toNat + 1) (w.current <<< 1 ||| value.toUInt8).toNat =
      fixed w.used.toNat w.current.toNat ++ [value] := by
    rw [toNat_shifted, fixed_mod (by omega), fixed_shift]
  rw [writeBit]
  split
  · rename_i hfull
    have hseven : w.used.toNat + 1 = 8 := by rw [← w.used_succ, hfull]; rfl
    show bytesBits (w.bytes ++ [_]) ++ fixed 0 0 = _
    rw [bytesBits_append, bytesBits_singleton, ← hseven, hshift, bits, fixed, List.append_nil,
      List.append_assoc]
  · show bytesBits w.bytes ++ fixed (w.used + 1).toNat _ = _
    rw [w.used_succ, hshift, bits, List.append_assoc]

/-- So does a number of fixed width. -/
theorem bits_writeBits (w : H264BitWriter) (value : UInt32) {count : ℕ} (h : count ≤ 32) :
    (w.writeBits value count).bits = w.bits ++ fixed count value.toNat := by
  induction count generalizing w with
  | zero => rw [writeBits, fixed, List.append_nil]
  | succ shift ih =>
    have hbit : ((value >>> UInt32.ofNat shift) &&& 1 != 0) = value.toNat.testBit shift := by
      have hone : ((value >>> UInt32.ofNat shift) &&& 1).toNat = value.toNat / 2 ^ shift % 2 := by
        rw [UInt32.toNat_and, UInt32.toNat_shiftRight, UInt32.toNat_ofNat']
        have hmod : shift % 2 ^ 32 % 32 = shift := by omega
        rw [hmod, Nat.shiftRight_eq_div_pow]
        exact Nat.and_one_is_mod _
      rw [Nat.testBit_eq_decide_div_mod_eq, ← hone, bne, Bool.eq_iff_iff]
      have hlt : ((value >>> UInt32.ofNat shift) &&& 1).toNat < 2 := by
        rw [hone]
        exact Nat.mod_lt _ Nat.two_pos
      simp only [Bool.not_eq_true', beq_eq_false_iff_ne, decide_eq_true_eq, ne_eq,
        ← UInt32.toNat_inj]
      show ¬ _ = 0 ↔ _
      omega
    rw [writeBits, ih _ (by omega), bits_writeBit, hbit, fixed, List.append_assoc]
    rfl

theorem bits_writeZeros (w : H264BitWriter) (n : ℕ) :
    (w.writeZeros n).bits = w.bits ++ List.replicate n false := by
  induction n generalizing w with
  | zero => rw [writeZeros, List.replicate_zero, List.append_nil]
  | succ n ih =>
    rw [writeZeros, ih, bits_writeBit, List.append_assoc, List.replicate_succ]
    rfl

/-- So does an Exp-Golomb number, which is the code of its successor. -/
theorem bits_writeUe (w : H264BitWriter) (value : UInt32) :
    (w.writeUe value).bits = w.bits ++ golomb (value + 1).toNat := by
  have hsize : (value + 1).toNat.size ≤ 32 := Nat.size_le.mpr (value + 1).toNat_lt
  have hbits : 32 - leadingZeros (value + 1) = (value + 1).toNat.size := by
    rw [leadingZeros]
    omega
  show ((w.writeZeros _).writeBits _ _).bits = _
  rw [hbits, bits_writeBits _ _ hsize, bits_writeZeros, golomb, List.append_assoc]

/-! ### The end -/

theorem used_writeZeros (w : H264BitWriter) (n : ℕ) :
    (w.writeZeros n).used.toNat = (w.used.toNat + n) % 8 := by
  induction n generalizing w with
  | zero =>
    have hused := w.used_toNat_lt
    rw [writeZeros]
    omega
  | succ n ih =>
    rw [writeZeros, ih, used_writeBit]
    omega

/-- A byte is filled with zeros, if it was begun. -/
theorem align_eq (w : H264BitWriter) : w.align = w.writeZeros ((8 - w.used.toNat) % 8) := by
  fun_induction align w with
  | case1 w hzero =>
    rw [hzero]
    rfl
  | case2 w hne ih =>
    have hused := w.used_toNat_lt
    have hpos : w.used.toNat ≠ 0 := fun h => hne (UInt8.toNat_inj.mp h)
    have hcount : (8 - w.used.toNat) % 8 = (8 - (w.writeBit false).used.toNat) % 8 + 1 := by
      rw [used_writeBit]
      omega
    rw [ih, hcount, writeZeros]

/-- **The end of a payload.** Its bits are those written, and behind them a one and the zeros up to
the end of the byte. -/
theorem bits_finishRbsp (w : H264BitWriter) :
    ∃ rest, Trailing rest ∧ bytesBits w.finishRbsp = w.bits ++ rest := by
  have hlt := (w.writeBit true).used_toNat_lt
  have hused : (w.writeBit true).align.used.toNat = 0 := by
    rw [align_eq, used_writeZeros]
    omega
  have hbits : (w.writeBit true).align.bits = bytesBits w.finishRbsp := by
    rw [bits, hused, fixed, List.append_nil]
    rfl
  refine ⟨true :: List.replicate ((8 - (w.writeBit true).used.toNat) % 8) false,
    ⟨_, Nat.mod_lt _ (by decide), rfl⟩, ?_⟩
  rw [← hbits, align_eq, bits_writeZeros, bits_writeBit, List.append_assoc]
  rfl

/-- A payload does not end in a zero byte, since it ends in the stop bit. -/
theorem getLast?_finishRbsp (w : H264BitWriter) : w.finishRbsp.getLast? ≠ some 0 := by
  obtain ⟨rest, hrest, hbits⟩ := w.bits_finishRbsp
  exact getLast?_ne_zero_of_trailing hbits hrest

end H264BitWriter

/-! ### Units -/

/-- One turn of the loop: the output so far, and the zeros at its end. -/
def annexBStep (output : List UInt8) (zeroCount : ℕ) (byte : UInt8) : List UInt8 × ℕ :=
  let (output, zeroCount) :=
    if zeroCount ≥ 2 ∧ byte ≤ 3 then (output ++ [3], 0) else (output, zeroCount)
  (output ++ [byte], if byte = 0 then zeroCount + 1 else 0)

/-- A start code, a header, and the content, broken up where it looks like a start code. -/
def annexBNal (header : UInt8) (rbsp : List UInt8) : List UInt8 :=
  (rbsp.foldl (fun state byte => annexBStep state.1 state.2 byte) ([0, 0, 0, 1, header], 0)).1

/-- The loop puts the escaped bytes behind what there is. -/
theorem foldl_annexBStep (rbsp output : List UInt8) (zeros : ℕ) :
    (rbsp.foldl (fun state byte => annexBStep state.1 state.2 byte) (output, zeros)).1 =
      output ++ escapeFrom zeros rbsp := by
  induction rbsp generalizing output zeros with
  | nil => exact (List.append_nil _).symm
  | cons byte rbsp ih =>
    rw [List.foldl_cons, escapeFrom, ih, annexBStep]
    by_cases hesc : 2 ≤ zeros ∧ byte ≤ 3
    · rw [if_pos hesc, if_pos hesc, List.append_assoc, List.append_assoc]
      rfl
    · rw [if_neg hesc, if_neg hesc, List.append_assoc]
      rfl

/-- A unit is a start code, the header and the payload with its escapes. -/
theorem annexBNal_eq (header : UInt8) (rbsp : List UInt8) :
    annexBNal header rbsp = [0, 0, 0, 1] ++ header :: escape rbsp :=
  foldl_annexBStep rbsp _ 0

/-- A payload becomes one unit of a byte stream. -/
theorem exists_unit_annexBNal {header : UInt8} {rbsp : List UInt8} (hheader : header ≠ 0)
    (hlast : rbsp.getLast? ≠ some 0) :
    ∃ u : NalUnit, annexBNal header rbsp = u.bytes ∧ u.kind = header &&& 0x1F ∧
      unescape u.payload.tail = rbsp :=
  ⟨escapedUnit header rbsp hheader hlast, annexBNal_eq header rbsp, rfl, unescape_escape rbsp⟩

/-! ### Elements of the syntax -/

/-- An element of the syntax: a flag, a number of a fixed width or one of variable length. -/
inductive Element where
  | flag (value : Bool)
  | bits (count : ℕ) (value : UInt32)
  | ue (value : UInt32)
  | se (value : Int32)
  deriving DecidableEq, Repr

/-- What is known of an element before it is read. -/
inductive Descriptor where
  | flag
  | bits (count : ℕ)
  | ue
  | se
  deriving DecidableEq, Repr

namespace Element

/-- What a reader has to know to read the element. -/
def descriptor : Element → Descriptor
  | flag _ => .flag
  | bits count _ => .bits count
  | ue _ => .ue
  | se _ => .se

/-- The value has a code: it is not too wide for its bits, and the code number of a code of variable
length does not wrap around. -/
def Fits : Element → Prop
  | flag _ => True
  | bits count value => count ≤ 32 ∧ value.toNat < 2 ^ count
  | ue value => value ≠ 0xFFFFFFFF
  | se value => value ≠ Int32.minValue

instance : ∀ e : Element, Decidable e.Fits
  | flag _ => isTrue trivial
  | bits count value => inferInstanceAs (Decidable (count ≤ 32 ∧ value.toNat < 2 ^ count))
  | ue value => inferInstanceAs (Decidable (value ≠ 0xFFFFFFFF))
  | se value => inferInstanceAs (Decidable (value ≠ Int32.minValue))

/-- The bits of an element. -/
def code : Element → List Bool
  | flag value => [value]
  | bits count value => fixed count value.toNat
  | ue value => golomb (value.toNat + 1)
  | se value => golomb (signedCode value.toInt + 1)

end Element

namespace Descriptor

/-- One element of the kind. -/
def read : Descriptor → Reader Element
  | flag => do return .flag (← readBit)
  | bits count => do return .bits count (UInt32.ofNat (← readFixed count))
  | ue => do return .ue (UInt32.ofNat (← readGolomb))
  | se => do return .se (Int32.ofInt (← readSigned))

/-- The elements with the given descriptors, one after the other. -/
def readAll : List Descriptor → Reader (List Element)
  | [] => pure []
  | d :: ds => do
    let e ← d.read
    let es ← readAll ds
    pure (e :: es)

end Descriptor

namespace H264BitWriter

/-- One element. -/
def write (w : H264BitWriter) : Element → H264BitWriter
  | .flag value => w.writeBit value
  | .bits count value => w.writeBits value count
  | .ue value => w.writeUe value
  | .se value => w.writeSe value

/-- The code of an unsigned number is its successor, but for the largest one. -/
theorem toNat_codeNum {value : UInt32} (h : value ≠ 0xFFFFFFFF) :
    (value + 1).toNat = value.toNat + 1 := by
  have hlt := value.toNat_lt
  have hne : value.toNat ≠ 2 ^ 32 - 1 := fun heq => h (UInt32.toNat_inj.mp heq)
  rw [UInt32.toNat_add]
  exact Nat.mod_eq_of_lt (by show value.toNat + 1 < 2 ^ 32; omega)

/-- The code of a signed number, but for the least one. -/
theorem toNat_signedCode {value : Int32} (h : value ≠ Int32.minValue) :
    (if value ≤ 0 then UInt32.ofNat value.toInt.natAbs * 2
      else value.toUInt32 * 2 - 1).toNat = signedCode value.toInt := by
  have hlt := value.toInt_lt
  have hge := value.le_toInt
  have hne : value.toInt ≠ -2 ^ 31 := fun heq => h (Int32.toInt_inj.mp heq)
  have hle : value ≤ 0 ↔ value.toInt ≤ 0 := Int32.le_iff_toInt_le
  rw [signedCode]
  by_cases hsign : value.toInt ≤ 0
  · rw [if_pos (hle.mpr hsign), if_pos hsign, UInt32.toNat_mul, UInt32.toNat_ofNat']
    show value.toInt.natAbs % 2 ^ 32 * 2 % 2 ^ 32 = _
    omega
  · have hnonneg : (0 : Int32) ≤ value := Int32.le_iff_toInt_le.mpr (by show 0 ≤ _; omega)
    have hnat : value.toUInt32.toNat = value.toInt.natAbs := by
      rw [Int32.toNat_toUInt32_of_le hnonneg, ← Int32.toNat_toInt]
      omega
    have hdouble : (value.toUInt32 * 2).toNat = 2 * value.toInt.natAbs := by
      rw [UInt32.toNat_mul, hnat]
      show value.toInt.natAbs * 2 % 2 ^ 32 = _
      omega
    have hone : (1 : UInt32) ≤ value.toUInt32 * 2 := by
      rw [UInt32.le_iff_toNat_le, hdouble]
      show 1 ≤ _
      omega
    rw [if_neg (mt hle.mp hsign), if_neg hsign, UInt32.toNat_sub_of_le _ _ hone, hdouble]
    rfl

/-- An element is written as its code. -/
theorem bits_write (w : H264BitWriter) {e : Element} (h : e.Fits) :
    (w.write e).bits = w.bits ++ e.code := by
  cases e with
  | flag value => exact w.bits_writeBit value
  | bits count value => exact w.bits_writeBits value h.1
  | ue value =>
    rw [write, bits_writeUe, toNat_codeNum h]
    rfl
  | se value =>
    have hcode := toNat_signedCode h
    have hlt := value.toInt_lt
    have hge := value.le_toInt
    have hne : value.toInt ≠ -2 ^ 31 := fun heq => h (Int32.toInt_inj.mp heq)
    have hfits : (if value ≤ 0 then UInt32.ofNat value.toInt.natAbs * 2
        else value.toUInt32 * 2 - 1) ≠ 0xFFFFFFFF := by
      intro heq
      have hmax : signedCode value.toInt = 2 ^ 32 - 1 := by
        rw [← hcode, heq]
        rfl
      rw [signedCode] at hmax
      split at hmax <;> omega
    show (w.writeUe _).bits = _
    rw [bits_writeUe, toNat_codeNum hfits, hcode]
    rfl

/-- So are the elements one after the other. -/
theorem bits_foldl_write (w : H264BitWriter) {es : List Element} (h : ∀ e ∈ es, e.Fits) :
    (es.foldl write w).bits = w.bits ++ es.flatMap Element.code := by
  induction es generalizing w with
  | nil => exact (List.append_nil _).symm
  | cons e es ih =>
    rw [List.foldl_cons, ih _ fun e he => h e (List.mem_cons_of_mem _ he),
      bits_write _ (h e List.mem_cons_self), List.flatMap_cons, List.append_assoc]

end H264BitWriter

/-- An element is read as it was written, whatever follows. -/
theorem Descriptor.read_code {e : Element} (h : e.Fits) (rest : List Bool) :
    e.descriptor.read (e.code ++ rest) = some (e, rest) := by
  cases e with
  | flag value => rfl
  | bits count value =>
    show (readFixed count >>= _) (fixed count value.toNat ++ rest) = _
    rw [bind_of_eq (readFixed_fixed h.2 rest), UInt32.ofNat_toNat]
    rfl
  | ue value =>
    show (readGolomb >>= _) (golomb (value.toNat + 1) ++ rest) = _
    rw [bind_of_eq (readGolomb_golomb (Nat.add_one_pos _) rest), Nat.add_sub_cancel,
      UInt32.ofNat_toNat]
    rfl
  | se value =>
    show (readSigned >>= _) (golomb (signedCode value.toInt + 1) ++ rest) = _
    rw [bind_of_eq (readSigned_golomb value.toInt rest), Int32.ofInt_toInt]
    rfl

/-- So are the elements one after the other. -/
theorem Descriptor.readAll_code {es : List Element} (h : ∀ e ∈ es, e.Fits) (rest : List Bool) :
    readAll (es.map Element.descriptor) (es.flatMap Element.code ++ rest) = some (es, rest) := by
  induction es with
  | nil => rfl
  | cons e es ih =>
    have hread := read_code (h e List.mem_cons_self) (es.flatMap Element.code ++ rest)
    have hmore := ih fun e he => h e (List.mem_cons_of_mem _ he)
    rw [List.flatMap_cons, List.append_assoc, List.map_cons, readAll, bind_of_eq hread,
      bind_of_eq hmore]
    rfl

/-- **What is written is read.** The elements of a payload, once it is a unit of the byte stream,
are read back from it with the bytes of emulation prevention taken out, and nothing but the trailing
bits follows. -/
theorem readAll_annexBNal {header : UInt8} (hheader : header ≠ 0) (es : List Element)
    (h : ∀ e ∈ es, e.Fits) :
    ∃ u : NalUnit, annexBNal header (es.foldl H264BitWriter.write .default).finishRbsp = u.bytes ∧
      u.kind = header &&& 0x1F ∧
      ∃ rest, Trailing rest ∧ Descriptor.readAll (es.map Element.descriptor)
        (bytesBits (unescape u.payload.tail)) = some (es, rest) := by
  obtain ⟨u, hu, hkind, hpayload⟩ := exists_unit_annexBNal hheader
    (es.foldl H264BitWriter.write .default).getLast?_finishRbsp
  obtain ⟨rest, hrest, hbits⟩ := (es.foldl H264BitWriter.write .default).bits_finishRbsp
  refine ⟨u, hu, hkind, rest, hrest, ?_⟩
  rw [hpayload, hbits, H264BitWriter.bits_foldl_write _ h, H264BitWriter.bits_default,
    List.nil_append]
  exact Descriptor.readAll_code h rest

theorem readAll_annexBNal_zeros :
    ∃ u : NalUnit, annexBNal 0x67 ([.bits 32 0, .ue 4, .se (-3)].foldl H264BitWriter.write
        .default).finishRbsp = u.bytes ∧
      ∃ rest, Trailing rest ∧ Descriptor.readAll [.bits 32, .ue, .se]
        (bytesBits (unescape u.payload.tail)) = some ([.bits 32 0, .ue 4, .se (-3)], rest) := by
  obtain ⟨u, hu, -, hread⟩ := readAll_annexBNal (show (0x67 : UInt8) ≠ 0 by decide)
    [.bits 32 0, .ue 4, .se (-3)] (by decide)
  exact ⟨u, hu, hread⟩

end Graphics

end Cheirizo
