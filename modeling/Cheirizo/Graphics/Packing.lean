import Cheirizo.Graphics.Convert

/-!
# Two half-resolution views of a full-resolution frame

`egfx/color/yuv444_packing.rs` and the chroma filter of `egfx/color/convert.rs`. AVC444 sends a
frame with full chroma as two frames with half of it. The main view has the luma and the averages of
the 2×2 chroma blocks; the auxiliary view carries the chroma of odd rows in its luma plane, eight
rows of U and eight of V in turn, and that of odd columns in even rows in its chroma planes.

## Main definitions

* `subsampleChroma420` — the box filter, one sample at a time or with vector instructions
* `packMainView`, `packAuxiliaryView`, `packDualViews`
* `recoverChroma` — the receiver's row and column map

## Main results

* `subsampleChroma420_spec` — all three versions of the filter compute the same averages
* `subsample_vectors_eq_scalar` — and return the same plane
* `packDualViews_lossless` — what a receiver gets back from the two views
-/

namespace Cheirizo

namespace Graphics

open Simd

/-- A frame with chroma planes of half the width and height. -/
structure Yuv420Frame where
  y : List UInt8
  u : List UInt8
  v : List UInt8
  width : ℕ
  height : ℕ
  deriving DecidableEq, Repr

/-! ### The box filter -/

/-- The rounded average of the 2×2 block at a position, from the addresses of its two rows. -/
def blockAverage (plane : List UInt8) (row0 row1 x : ℕ) : UInt8 :=
  UInt8.ofNat (((plane.getD (row0 + x) 0).toNat + (plane.getD (row0 + (x + 1)) 0).toNat +
    (plane.getD (row1 + x) 0).toNat + (plane.getD (row1 + (x + 1)) 0).toNat + 2) / 4)

/-- A quarter of a plane, pixel by pixel. -/
def subsampleScalar (plane : List UInt8) (width height : ℕ) : List UInt8 :=
  (List.range (height / 2)).flatMap fun cy => (List.range (width / 2)).map fun cx =>
    blockAverage plane (2 * cy * width) ((2 * cy + 1) * width) (2 * cx)

/-- Sixteen averages from thirty-two columns of two rows. -/
def subsampleChunkAvx2 (r0 r1 : M256) : M128 :=
  let zero := splat mmSetzero
  let vLo := both mmAddEpi16 (both mmUnpackloEpi8 r0 zero) (both mmUnpackloEpi8 r1 zero)
  let vHi := both mmAddEpi16 (both mmUnpackhiEpi8 r0 zero) (both mmUnpackhiEpi8 r1 zero)
  let sum := both mmAddEpi16 (both mmHaddEpi16 vLo vHi) (splat (mmSet1Epi16 2))
  let avg : M256 := ⟨mmSrliEpi16 sum.lo 2, mmSrliEpi16 sum.hi 2⟩
  let result := both mmPackusEpi16 avg avg
  (mm256Permute4x64 result 0b11011000).lo

/-- Eight averages from sixteen columns of two rows. -/
def subsampleChunkNeon (r0 r1 : Fin 16 → UInt8) : Fin 8 → UInt8 :=
  let low (r : Fin 16 → UInt8) : Fin 8 → UInt16 :=
    convertLanes UInt8.toUInt16 (vgetLow (r : Fin (8 + 8) → UInt8))
  let high (r : Fin 16 → UInt8) : Fin 8 → UInt16 :=
    convertLanes UInt8.toUInt16 (vgetHigh (r : Fin (8 + 8) → UInt8))
  let vLo := lanewise (· + ·) (low r0) (low r1)
  let vHi := lanewise (· + ·) (high r0) (high r1)
  let sum := lanewise (· + ·) (vpaddqU16 vLo vHi) (vdupq 2)
  convertLanes UInt16.toUInt8 (convertLanes (fun x : UInt16 => x >>> 2) sum)

/-- A row of the vector versions: chunks of `lanes` averages, then the columns that are left. -/
def subsampleRow (lanes : ℕ) (chunk : ℕ → ℕ → ℕ → UInt8) (plane : List UInt8) (width outY : ℕ)
    (out : List UInt8) : List UInt8 :=
  let outWidth := width / 2
  let row0 := outY * 2 * width
  let row1 := (outY * 2 + 1) * width
  let outRow := outY * outWidth
  let simdWidth := outWidth / lanes
  let out := (List.range simdWidth).foldl (fun out i =>
    overwrite out (outRow + lanes * i) lanes
      (chunk (row0 + i * (2 * lanes)) (row1 + i * (2 * lanes)))) out
  (List.range' (simdWidth * lanes) (outWidth - simdWidth * lanes)).foldl (fun out outX =>
    overwrite out (outRow + outX) 1 fun _ => blockAverage plane row0 row1 (outX * 2)) out

/-- Whole chunks by their own code, and the rest of each row pixel by pixel. -/
def subsampleChunks (lanes : ℕ) (chunk : ℕ → ℕ → ℕ → UInt8) (plane : List UInt8)
    (width height : ℕ) : List UInt8 :=
  (List.range (height / 2)).foldl (fun out outY => subsampleRow lanes chunk plane width outY out)
    (List.replicate (width / 2 * (height / 2)) 0)

/-- Sixteen results at a time. -/
def subsampleAvx2 (plane : List UInt8) (width height : ℕ) : List UInt8 :=
  subsampleChunks 16 (fun address0 address1 j =>
    subsampleChunkAvx2 (mm256Loadu plane address0) (mm256Loadu plane address1) (Fin.ofNat 16 j))
    plane width height

/-- Eight results at a time. -/
def subsampleNeon (plane : List UInt8) (width height : ℕ) : List UInt8 :=
  subsampleChunks 8 (fun address0 address1 j =>
    subsampleChunkNeon (vld1qU8 plane address0) (vld1qU8 plane address1) (Fin.ofNat 8 j))
    plane width height

/-- The box filter. Odd dimensions and planes of another size are programming errors. -/
def subsampleChroma420 (extension : Extension) (plane : List UInt8) (width height : ℕ) :
    Option (List UInt8) :=
  if width % 2 = 0 ∧ height % 2 = 0 ∧ plane.length = width * height then
    match extension with
    | .avx2 => some (subsampleAvx2 plane width height)
    | .neon => some (subsampleNeon plane width height)
    | .none => some (subsampleScalar plane width height)
  else none

/-! ### The two views -/

/-- The luma, and the averages of the chroma. -/
def packMainView (extension : Extension) (frame : Yuv444Frame) : Option Yuv420Frame := do
  let u ← subsampleChroma420 extension frame.u frame.width frame.height
  let v ← subsampleChroma420 extension frame.v frame.width frame.height
  return { y := frame.y, u, v, width := frame.width, height := frame.height }

/-- The luma plane of the auxiliary view while it is filled, and the odd rows used so far. -/
structure AuxRows where
  plane : List UInt8
  uRowCounter : ℕ
  vRowCounter : ℕ

/-- Copy a whole row, unless it is beyond the frame. -/
def copyRow (source : List UInt8) (width height sourceRow auxRow : ℕ) (plane : List UInt8) :
    List UInt8 :=
  if height ≤ sourceRow then plane
  else overwrite plane (auxRow * width) width fun x => source.getD (sourceRow * width + x) 0

/-- Eight odd rows of U and eight of V, in turn. -/
def packAuxRow (frame : Yuv444Frame) (rows : AuxRows) (auxRow : ℕ) : AuxRows :=
  if auxRow % 16 < 8 then
    { rows with
      plane := copyRow frame.u frame.width frame.height (2 * rows.uRowCounter + 1) auxRow rows.plane
      uRowCounter := rows.uRowCounter + 1 }
  else
    { rows with
      plane := copyRow frame.v frame.width frame.height (2 * rows.vRowCounter + 1) auxRow rows.plane
      vRowCounter := rows.vRowCounter + 1 }

/-- The height, up to whole macroblocks. -/
def paddedHeight (height : ℕ) : ℕ := (height + 15) / 16 * 16

/-- What the main view leaves out of both colour planes, eight rows of each in turn. -/
def packAuxLuma (frame : Yuv444Frame) : List UInt8 :=
  ((List.range (paddedHeight frame.height)).foldl (packAuxRow frame)
    ⟨List.replicate (paddedHeight frame.height * frame.width) 128, 0, 0⟩).plane

/-- The chroma of odd columns in even rows. -/
def packAuxChroma (frame : Yuv444Frame) : List UInt8 × List UInt8 :=
  let chromaWidth := frame.width / 2
  let chromaHeight := frame.height / 2
  (List.range chromaHeight).foldl (fun planes cy =>
      (List.range chromaWidth).foldl (fun planes cx =>
        let idx := cy * 2 * frame.width + (cx * 2 + 1)
        let outIdx := cy * chromaWidth + cx
        (overwrite planes.1 outIdx 1 fun _ => frame.u.getD idx 0,
          overwrite planes.2 outIdx 1 fun _ => frame.v.getD idx 0)) planes)
    (List.replicate (chromaWidth * chromaHeight) 128,
      List.replicate (chromaWidth * chromaHeight) 128)

/-- The second picture that is encoded. -/
def packAuxiliaryView (frame : Yuv444Frame) : Yuv420Frame where
  y := (packAuxLuma frame).take (frame.height * frame.width)
  u := (packAuxChroma frame).1
  v := (packAuxChroma frame).2
  width := frame.width
  height := frame.height

/-- Both pictures. Only the first can fail. -/
def packDualViews (extension : Extension) (frame : Yuv444Frame) :
    Option (Yuv420Frame × Yuv420Frame) :=
  (packMainView extension frame).map fun main => (main, packAuxiliaryView frame)

/-! ### What a chunk computes -/

/-- The sum of four bytes in sixteen bits, halved twice with rounding. -/
theorem narrow_blockSum (a b c d : UInt8) :
    ((a.toUInt16 + c.toUInt16 + (b.toUInt16 + d.toUInt16) + 2) >>> 2) =
      (UInt8.ofNat ((a.toNat + b.toNat + c.toNat + d.toNat + 2) / 4)).toUInt16 := by
  have ha := a.toNat_lt
  have hb := b.toNat_lt
  have hc := c.toNat_lt
  have hd := d.toNat_lt
  apply UInt16.toNat_inj.mp
  simp only [UInt16.toNat_shiftRight, UInt16.toNat_add, UInt8.toNat_toUInt16, UInt8.toNat_ofNat',
    UInt16.reduceToNat, Nat.shiftRight_eq_div_pow, Nat.reduceMod, Nat.reducePow]
  omega

/-- The averages of one half of a chunk, as words. -/
def halfAverages (p q : M128) : M128 :=
  mmSrliEpi16 (mmAddEpi16 (mmHaddEpi16
    (mmAddEpi16 (mmUnpackloEpi8 p mmSetzero) (mmUnpackloEpi8 q mmSetzero))
    (mmAddEpi16 (mmUnpackhiEpi8 p mmSetzero) (mmUnpackhiEpi8 q mmSetzero))) (mmSet1Epi16 2)) 2

theorem word16_halfAverages (p q : M128) (i : Fin 8) :
    word16 (halfAverages p q) i =
      ((p (lowByte i)).toUInt16 + (q (lowByte i)).toUInt16 +
        ((p (highByte i)).toUInt16 + (q (highByte i)).toUInt16) + 2) >>> 2 := by
  have hlo : ∀ (r : M128) (k : Fin 8),
      word16 (mmUnpackloEpi8 r mmSetzero) k = (r ⟨k, by omega⟩).toUInt16 := by
    intro r k
    fin_cases k <;> exact word16_zeroExtend rfl
  have hhi : ∀ (r : M128) (k : Fin 8),
      word16 (mmUnpackhiEpi8 r mmSetzero) k = (r ⟨8 + k, by omega⟩).toUInt16 := by
    intro r k
    fin_cases k <;> exact word16_zeroExtend rfl
  simp only [halfAverages, mmSrliEpi16, mmAddEpi16, mmHaddEpi16, mmSet1Epi16, word16_ofWord16, hlo,
    hhi]
  fin_cases i <;> rfl

/-- A byte of one half, narrowed: the average of its block. -/
theorem saturateU8_halfAverages (plane : List UInt8) (row0 row1 : ℕ) (i : Fin 8) :
    saturateU8 (word16 (halfAverages (mmLoadu plane row0) (mmLoadu plane row1)) i).toInt16 =
      blockAverage plane row0 row1 (2 * i) := by
  rw [word16_halfAverages, narrow_blockSum, saturateU8_toUInt16]
  rfl

/-- **A chunk of AVX2** is sixteen averages, in order. -/
theorem subsampleChunkAvx2_eq (plane : List UInt8) (row0 row1 : ℕ) {j : ℕ} (hj : j < 16) :
    subsampleChunkAvx2 (mm256Loadu plane row0) (mm256Loadu plane row1) (Fin.ofNat 16 j) =
      blockAverage plane row0 row1 (2 * j) := by
  have hlow : ∀ (r0 r1 : M256) (i : Fin 8), subsampleChunkAvx2 r0 r1 (Fin.ofNat 16 i) =
      saturateU8 (word16 (halfAverages r0.lo r1.lo) i).toInt16 := by
    intro r0 r1 i
    fin_cases i <;> rfl
  have hhigh : ∀ (r0 r1 : M256) (i : Fin 8), subsampleChunkAvx2 r0 r1 (Fin.ofNat 16 (8 + i)) =
      saturateU8 (word16 (halfAverages r0.hi r1.hi) i).toInt16 := by
    intro r0 r1 i
    fin_cases i <;> rfl
  by_cases h : j < 8
  · exact (hlow _ _ ⟨j, h⟩).trans (saturateU8_halfAverages plane row0 row1 ⟨j, h⟩)
  · have hupper := hhigh (mm256Loadu plane row0) (mm256Loadu plane row1) ⟨j - 8, by omega⟩
    have havg := saturateU8_halfAverages plane (row0 + 16) (row1 + 16) ⟨j - 8, by omega⟩
    have hshift : blockAverage plane (row0 + 16) (row1 + 16) (2 * (j - 8)) =
        blockAverage plane row0 row1 (2 * j) := by
      rw [blockAverage, blockAverage]
      rw [show row0 + 16 + 2 * (j - 8) = row0 + 2 * j by omega,
        show row1 + 16 + 2 * (j - 8) = row1 + 2 * j by omega,
        show row0 + 16 + (2 * (j - 8) + 1) = row0 + (2 * j + 1) by omega,
        show row1 + 16 + (2 * (j - 8) + 1) = row1 + (2 * j + 1) by omega]
    rw [show 8 + (⟨j - 8, by omega⟩ : Fin 8).val = j by simp; omega] at hupper
    exact (hupper.trans havg).trans hshift

/-- **A chunk of NEON** is eight averages, in order. -/
theorem subsampleChunkNeon_eq (plane : List UInt8) (row0 row1 : ℕ) {j : ℕ} (hj : j < 8) :
    subsampleChunkNeon (vld1qU8 plane row0) (vld1qU8 plane row1) (Fin.ofNat 8 j) =
      blockAverage plane row0 row1 (2 * j) := by
  have hlane : ∀ (r0 r1 : Fin 16 → UInt8) (i : Fin 8), subsampleChunkNeon r0 r1 (Fin.ofNat 8 i) =
      (((r0 ⟨2 * i, by omega⟩).toUInt16 + (r1 ⟨2 * i, by omega⟩).toUInt16 +
        ((r0 ⟨2 * i + 1, by omega⟩).toUInt16 + (r1 ⟨2 * i + 1, by omega⟩).toUInt16) + 2) >>>
          2).toUInt8 := by
    intro r0 r1 i
    fin_cases i <;> rfl
  refine (hlane _ _ ⟨j, hj⟩).trans ?_
  rw [narrow_blockSum, UInt8.toUInt8_toUInt16]
  rfl

/-! ### Whole planes -/

section Filter

variable {plane : List UInt8} {width height : ℕ}

theorem row_of_address {w r k : ℕ} (hk : k < w) : (r * w + k) / w = r := by
  rw [Nat.mul_comm, Nat.mul_add_div (by omega), Nat.div_eq_of_lt hk, Nat.add_zero]

theorem column_of_address {w r k : ℕ} (hk : k < w) : (r * w + k) % w = k := by
  rw [Nat.mul_comm, Nat.mul_add_mod, Nat.mod_eq_of_lt hk]

/-- A row fits into its plane. -/
theorem row_le {w h r : ℕ} (hr : r < h) : r * w + w ≤ w * h := by
  have hle := Nat.mul_le_mul_right w (Nat.succ_le_of_lt hr)
  rw [Nat.succ_mul, Nat.mul_comm h] at hle
  exact hle

/-- The average at an address of the filtered plane. -/
def averageAt (plane : List UInt8) (width i : ℕ) : UInt8 :=
  blockAverage plane (i / (width / 2) * 2 * width) ((i / (width / 2) * 2 + 1) * width)
    (2 * (i % (width / 2)))

theorem averageAt_eq {r x : ℕ} (hx : x < width / 2) :
    averageAt plane width (r * (width / 2) + x) =
      blockAverage plane (r * 2 * width) ((r * 2 + 1) * width) (2 * x) := by
  rw [averageAt, row_of_address hx, column_of_address hx]

/-- The columns of a block, counted from its start. -/
theorem blockAverage_shift (row0 row1 a x : ℕ) :
    blockAverage plane (row0 + a) (row1 + a) x = blockAverage plane row0 row1 (a + x) := by
  simp only [blockAverage, Nat.add_assoc]

/-- The part of a row that is filtered in chunks of some number of averages. -/
theorem fills_subsampleRow_chunks {lanes : ℕ} {chunk : ℕ → ℕ → ℕ → UInt8}
    (hchunk : ∀ address0 address1 j, j < lanes →
      chunk address0 address1 j = blockAverage plane address0 address1 (2 * j))
    {outY : ℕ} (hrow : outY < height / 2) :
    Fills (HasLength (width / 2 * (height / 2))) (fun l i => l.getD i 0)
      (fun out => (List.range (width / 2 / lanes)).foldl (fun out i =>
          overwrite out (outY * (width / 2) + lanes * i) lanes
            (chunk (outY * 2 * width + i * (2 * lanes))
              ((outY * 2 + 1) * width + i * (2 * lanes)))) out)
      (outY * (width / 2)) (outY * (width / 2) + lanes * (width / 2 / lanes))
      (averageAt plane width) := by
  have hfits := row_le (w := width / 2) hrow
  have hfull : width / 2 / lanes * lanes ≤ width / 2 := Nat.div_mul_le_self _ _
  refine Fills.range _ fun g hg => ?_
  have hg' : lanes * g + lanes ≤ width / 2 := by
    have hle := Nat.mul_le_mul_right lanes (Nat.succ_le_of_lt hg)
    rw [Nat.succ_mul, Nat.mul_comm g] at hle
    omega
  have hwrite := fills_overwrite (show outY * (width / 2) + lanes * g + lanes ≤
    width / 2 * (height / 2) by omega) (chunk (outY * 2 * width + g * (2 * lanes))
      ((outY * 2 + 1) * width + g * (2 * lanes))) (0 : UInt8)
  rw [show outY * (width / 2) + lanes * (g + 1) = outY * (width / 2) + lanes * g + lanes by
    rw [Nat.mul_succ]
    omega]
  refine hwrite.congr fun i hle hlt => ?_
  obtain ⟨j, rfl⟩ := Nat.exists_eq_add_of_le hle
  rw [Nat.add_sub_cancel_left, hchunk _ _ j (by omega), blockAverage_shift, Nat.add_assoc,
    averageAt_eq (by omega)]
  congr 1
  rw [Nat.mul_add, Nat.mul_left_comm, Nat.mul_comm g]

/-- The part of a row from a column on that is filtered one average after the other. -/
theorem fills_subsampleRow_rest {outY : ℕ} (hrow : outY < height / 2) {first count : ℕ}
    (hcount : first + count = width / 2) :
    Fills (HasLength (width / 2 * (height / 2))) (fun l i => l.getD i 0)
      (fun out => (List.range' first count).foldl (fun out outX =>
          overwrite out (outY * (width / 2) + outX) 1 fun _ =>
            blockAverage plane (outY * 2 * width) ((outY * 2 + 1) * width) (outX * 2)) out)
      (outY * (width / 2) + 1 * first) (outY * (width / 2) + 1 * (first + count))
      (averageAt plane width) := by
  have hfits := row_le (w := width / 2) hrow
  refine Fills.range' _ _ fun g hle hlt => ?_
  have hwrite := fills_overwrite (show outY * (width / 2) + g + 1 ≤
    width / 2 * (height / 2) by omega)
    (fun _ => blockAverage plane (outY * 2 * width) ((outY * 2 + 1) * width) (g * 2)) (0 : UInt8)
  rw [Nat.one_mul, Nat.one_mul, ← Nat.add_assoc]
  refine hwrite.congr fun i hle hlt => ?_
  rw [show i = outY * (width / 2) + g by omega, averageAt_eq (by omega), Nat.mul_comm g]

/-- One row of the filtered plane. -/
theorem fills_subsampleRow {lanes : ℕ} {chunk : ℕ → ℕ → ℕ → UInt8}
    (hchunk : ∀ address0 address1 j, j < lanes →
      chunk address0 address1 j = blockAverage plane address0 address1 (2 * j))
    {outY : ℕ} (hrow : outY < height / 2) :
    Fills (HasLength (width / 2 * (height / 2))) (fun l i => l.getD i 0)
      (subsampleRow lanes chunk plane width outY) (outY * (width / 2))
      (outY * (width / 2) + width / 2) (averageAt plane width) := by
  have hfull : width / 2 / lanes * lanes ≤ width / 2 := Nat.div_mul_le_self _ _
  have hchunks : Fills _ _ _ (outY * (width / 2)) _ (averageAt plane width) :=
    fills_subsampleRow_chunks hchunk hrow
  have hrest : Fills _ _ _ _ _ (averageAt plane width) :=
    fills_subsampleRow_rest hrow (Nat.add_sub_cancel' hfull)
  rw [Nat.mul_comm lanes] at hchunks
  rw [Nat.one_mul, Nat.one_mul, Nat.add_sub_cancel' hfull] at hrest
  exact hchunks.trans hrest (by omega) (by omega)

/-- The vector versions compute the averages. -/
theorem subsampleChunks_spec {lanes : ℕ} {chunk : ℕ → ℕ → ℕ → UInt8}
    (hchunk : ∀ address0 address1 j, j < lanes →
      chunk address0 address1 j = blockAverage plane address0 address1 (2 * j)) :
    (subsampleChunks lanes chunk plane width height).length = width / 2 * (height / 2) ∧
      ∀ i < width / 2 * (height / 2),
        (subsampleChunks lanes chunk plane width height).getD i 0 = averageAt plane width i := by
  have hrows : Fills (HasLength (width / 2 * (height / 2))) (fun l i => l.getD i 0)
      (fun out => (List.range (height / 2)).foldl
        (fun out outY => subsampleRow lanes chunk plane width outY out) out)
      0 (0 + width / 2 * (height / 2)) (averageAt plane width) := by
    refine Fills.range _ fun outY hrow => ?_
    have hfill : Fills (HasLength (width / 2 * (height / 2))) _ _ _ _ (averageAt plane width) :=
      fills_subsampleRow hchunk hrow
    rwa [Nat.zero_add, Nat.zero_add, Nat.mul_succ, Nat.mul_comm (width / 2) outY]
  rw [Nat.zero_add] at hrows
  exact hrows.list List.length_replicate

/-- So does the version for one sample at a time. -/
theorem subsampleScalar_spec :
    (subsampleScalar plane width height).length = width / 2 * (height / 2) ∧
      ∀ i < width / 2 * (height / 2),
        (subsampleScalar plane width height).getD i 0 = averageAt plane width i := by
  have hrow : ∀ cy < height / 2, ((List.range (width / 2)).map fun cx =>
      blockAverage plane (2 * cy * width) ((2 * cy + 1) * width) (2 * cx)).length = width / 2 :=
    fun cy _ => by rw [List.length_map, List.length_range]
  obtain ⟨hlength, hcells⟩ := flatMap_range_rows hrow 0
  refine ⟨hlength, fun i hi => (hcells i hi).trans ?_⟩
  have hpos : 0 < width / 2 := Nat.pos_of_mul_pos_right (Nat.lt_of_le_of_lt (Nat.zero_le i) hi)
  have hcolumn : i % (width / 2) < width / 2 := Nat.mod_lt _ hpos
  rw [List.getD_eq_getElem _ _ (by simpa using hcolumn), List.getElem_map, List.getElem_range,
    averageAt, Nat.mul_comm 2 (i / _)]

/-- **All versions of the filter** compute the same averages. -/
theorem subsampleChroma420_spec (extension : Extension) (hwidth : width % 2 = 0)
    (hheight : height % 2 = 0) (hplane : plane.length = width * height) :
    ∃ out, subsampleChroma420 extension plane width height = some out ∧
      out.length = width / 2 * (height / 2) ∧
      ∀ i < width / 2 * (height / 2), out.getD i 0 = averageAt plane width i := by
  unfold subsampleChroma420
  rw [if_pos ⟨hwidth, hheight, hplane⟩]
  cases extension with
  | none => exact ⟨_, rfl, subsampleScalar_spec⟩
  | avx2 => exact ⟨_, rfl, subsampleChunks_spec fun _ _ _ hj => subsampleChunkAvx2_eq plane _ _ hj⟩
  | neon => exact ⟨_, rfl, subsampleChunks_spec fun _ _ _ hj => subsampleChunkNeon_eq plane _ _ hj⟩

/-- An average of the filtered plane reads nothing behind the plane. -/
theorem averageAt_append (hplane : plane.length = width * height) (beyond : List UInt8) {i : ℕ}
    (hi : i < width / 2 * (height / 2)) :
    averageAt (plane ++ beyond) width i = averageAt plane width i := by
  have hpos : 0 < width / 2 := Nat.pos_of_mul_pos_right (Nat.lt_of_le_of_lt (Nat.zero_le i) hi)
  have hrow : i / (width / 2) < height / 2 := Nat.div_lt_of_lt_mul hi
  have hcolumn : i % (width / 2) < width / 2 := Nat.mod_lt i hpos
  have hread : ∀ r x, r < height → x < width →
      (plane ++ beyond).getD (r * width + x) 0 = plane.getD (r * width + x) 0 := by
    intro r x hr hx
    have hfits := row_le (w := width) hr
    exact List.getD_append _ _ _ _ (by omega)
  rw [averageAt, averageAt, blockAverage, blockAverage, hread _ _ (by omega) (by omega),
    hread _ _ (by omega) (by omega), hread _ _ (by omega) (by omega),
    hread _ _ (by omega) (by omega)]

/-- **The vector versions are the filter.** They return the plane that averaging one block at a time
returns, whatever is in memory behind the plane. -/
theorem subsample_vectors_eq_scalar (hwidth : width % 2 = 0) (hheight : height % 2 = 0)
    (hplane : plane.length = width * height) (beyond : List UInt8) :
    subsampleAvx2 (plane ++ beyond) width height = subsampleScalar plane width height ∧
      subsampleNeon (plane ++ beyond) width height = subsampleScalar plane width height ∧
      ∀ extension, subsampleChroma420 extension plane width height =
        some (subsampleScalar plane width height) := by
  obtain ⟨hlength, hcells⟩ := @subsampleScalar_spec plane width height
  have hchunks : ∀ {lanes : ℕ} {chunk : ℕ → ℕ → ℕ → UInt8} (memory : List UInt8),
      (∀ address0 address1 j, j < lanes →
        chunk address0 address1 j = blockAverage (plane ++ memory) address0 address1 (2 * j)) →
      subsampleChunks lanes chunk (plane ++ memory) width height =
        subsampleScalar plane width height := by
    intro lanes chunk memory hchunk
    obtain ⟨hlength', hcells'⟩ :=
      @subsampleChunks_spec (plane ++ memory) width height lanes chunk hchunk
    refine ext_getD hlength' hlength 0 fun i hi => ?_
    rw [hcells' i hi, hcells i hi, averageAt_append hplane memory hi]
  have havx2 : ∀ memory, subsampleAvx2 (plane ++ memory) width height =
      subsampleScalar plane width height :=
    fun memory => hchunks memory fun _ _ _ hj => subsampleChunkAvx2_eq _ _ _ hj
  have hneon : ∀ memory, subsampleNeon (plane ++ memory) width height =
      subsampleScalar plane width height :=
    fun memory => hchunks memory fun _ _ _ hj => subsampleChunkNeon_eq _ _ _ hj
  have havx2' := havx2 []
  have hneon' := hneon []
  rw [List.append_nil] at havx2' hneon'
  refine ⟨havx2 beyond, hneon beyond, fun extension => ?_⟩
  unfold subsampleChroma420
  rw [if_pos ⟨hwidth, hheight, hplane⟩]
  cases extension with
  | none => rfl
  | avx2 => exact congrArg some havx2'
  | neon => exact congrArg some hneon'

/-- Sixteen columns with a vector, and one more. -/
theorem subsample_ramp :
    subsampleChroma420 .avx2 ((List.range 68).map UInt8.ofNat) 34 2 =
      some ((List.range 17).map fun i => UInt8.ofNat (2 * i + 18)) := by
  rw [(subsample_vectors_eq_scalar (by decide) (by decide) (by decide) []).2.2 .avx2]
  decide +kernel

end Filter

/-! ### The auxiliary view -/

section Auxiliary

variable {frame : Yuv444Frame} {width height : ℕ}

/-- How many odd rows of U are in the first rows of the auxiliary luma plane. -/
def uRows (auxRow : ℕ) : ℕ := auxRow / 16 * 8 + min (auxRow % 16) 8

/-- How many rows of the second plane stand before a row. -/
def vRows (auxRow : ℕ) : ℕ := auxRow / 16 * 8 + (auxRow % 16 - 8)

/-- What goes to a row of the auxiliary luma plane. -/
def placeRow (frame : Yuv444Frame) (auxRow : ℕ) (plane : List UInt8) : List UInt8 :=
  if auxRow % 16 < 8 then
    copyRow frame.u frame.width frame.height (2 * uRows auxRow + 1) auxRow plane
  else copyRow frame.v frame.width frame.height (2 * vRows auxRow + 1) auxRow plane

/-- The counters are determined by the row. -/
theorem foldl_packAuxRow (frame : Yuv444Frame) (plane : List UInt8) (count : ℕ) :
    (List.range count).foldl (packAuxRow frame) ⟨plane, 0, 0⟩ =
      ⟨(List.range count).foldl (fun plane auxRow => placeRow frame auxRow plane) plane,
        uRows count, vRows count⟩ := by
  induction count with
  | zero => rfl
  | succ count ih =>
    rw [List.range_succ, List.foldl_append, List.foldl_append, ih, List.foldl_cons, List.foldl_cons,
      List.foldl_nil, List.foldl_nil, packAuxRow, placeRow]
    split
    · rename_i hu
      rw [show uRows (count + 1) = uRows count + 1 by rw [uRows, uRows]; omega,
        show vRows (count + 1) = vRows count by rw [vRows, vRows]; omega]
    · rename_i hv
      rw [show uRows (count + 1) = uRows count by rw [uRows, uRows]; omega,
        show vRows (count + 1) = vRows count + 1 by rw [vRows, vRows]; omega]

/-- The value at an address of the auxiliary luma plane. -/
def auxLumaAt (frame : Yuv444Frame) (i : ℕ) : UInt8 :=
  if i / frame.width % 16 < 8 then
    frame.u.getD ((2 * uRows (i / frame.width) + 1) * frame.width + i % frame.width) 0
  else frame.v.getD ((2 * vRows (i / frame.width) + 1) * frame.width + i % frame.width) 0

/-- In a frame of whole macroblocks every row is placed. -/
theorem fills_placeRow (hheight : frame.height % 16 = 0) {auxRow : ℕ}
    (hrow : auxRow < frame.height) :
    Fills (HasLength (frame.width * frame.height)) (fun l i => l.getD i 0) (placeRow frame auxRow)
      (auxRow * frame.width) (auxRow * frame.width + frame.width) (auxLumaAt frame) := by
  have hcopy : ∀ (source : List UInt8) (sourceRow : ℕ), sourceRow < frame.height →
      Fills (HasLength (frame.width * frame.height)) (fun l i => l.getD i 0)
        (copyRow source frame.width frame.height sourceRow auxRow)
        (auxRow * frame.width) (auxRow * frame.width + frame.width)
        fun i => source.getD (sourceRow * frame.width + (i - auxRow * frame.width)) 0 := by
    intro source sourceRow hsource
    have hwrite := fills_overwrite (row_le (w := frame.width) hrow)
      (fun x => source.getD (sourceRow * frame.width + x) 0) (0 : UInt8)
    refine hwrite.of_eq fun plane _ => ?_
    rw [copyRow, if_neg (by omega)]
  have haddress : ∀ i, auxRow * frame.width ≤ i → i < auxRow * frame.width + frame.width →
      i / frame.width = auxRow ∧ i % frame.width = i - auxRow * frame.width := by
    intro i hle hlt
    obtain ⟨j, rfl⟩ := Nat.exists_eq_add_of_le hle
    have hj : j < frame.width := by omega
    rw [row_of_address hj, column_of_address hj, Nat.add_sub_cancel_left]
    exact ⟨rfl, rfl⟩
  by_cases hu : auxRow % 16 < 8
  · have hfill := hcopy frame.u (2 * uRows auxRow + 1) (by rw [uRows]; omega)
    refine (hfill.of_eq fun plane _ => by rw [placeRow, if_pos hu]).congr fun i hle hlt => ?_
    obtain ⟨hr, hc⟩ := haddress i hle hlt
    rw [auxLumaAt, hr, if_pos hu, hc]
  · have hfill := hcopy frame.v (2 * vRows auxRow + 1) (by rw [vRows]; omega)
    refine (hfill.of_eq fun plane _ => by rw [placeRow, if_neg hu]).congr fun i hle hlt => ?_
    obtain ⟨hr, hc⟩ := haddress i hle hlt
    rw [auxLumaAt, hr, if_neg hu, hc]

theorem packAuxLuma_spec (hheight : frame.height % 16 = 0) :
    (packAuxLuma frame).length = frame.width * frame.height ∧
      ∀ i < frame.width * frame.height, (packAuxLuma frame).getD i 0 = auxLumaAt frame i := by
  have hrows : Fills (HasLength (frame.width * frame.height)) (fun l i => l.getD i 0)
      (fun plane => (List.range frame.height).foldl
        (fun plane auxRow => placeRow frame auxRow plane) plane)
      0 (0 + frame.width * frame.height) (auxLumaAt frame) := by
    refine Fills.range _ fun auxRow hrow => ?_
    have hfill := fills_placeRow hheight hrow
    rwa [Nat.zero_add, Nat.zero_add, Nat.mul_succ, Nat.mul_comm frame.width auxRow]
  have hpadded : paddedHeight frame.height = frame.height := by
    rw [paddedHeight]
    omega
  rw [Nat.zero_add] at hrows
  rw [packAuxLuma, hpadded, foldl_packAuxRow]
  refine hrows.list ?_
  rw [List.length_replicate, Nat.mul_comm]

/-- Two planes of one size. -/
def Paired (n : ℕ) (planes : List UInt8 × List UInt8) : Prop :=
  planes.1.length = n ∧ planes.2.length = n

/-- The values of both planes at an address. -/
def cells (planes : List UInt8 × List UInt8) (i : ℕ) : UInt8 × UInt8 :=
  (planes.1.getD i 0, planes.2.getD i 0)

/-- The values at an address of the auxiliary chroma planes. -/
def auxChromaAt (frame : Yuv444Frame) (i : ℕ) : UInt8 × UInt8 :=
  let idx := i / (frame.width / 2) * 2 * frame.width + (i % (frame.width / 2) * 2 + 1)
  (frame.u.getD idx 0, frame.v.getD idx 0)

theorem fills_pair {n base : ℕ} (hfits : base + 1 ≤ n) (value : UInt8 × UInt8) :
    Fills (Paired n) cells
      (fun planes => (overwrite planes.1 base 1 fun _ => value.1,
        overwrite planes.2 base 1 fun _ => value.2)) base (base + 1) fun _ => value where
  keeps planes h := by
    refine ⟨?_, ?_⟩
    · rw [length_overwrite, h.1]
    · rw [length_overwrite, h.2]
  read_eq planes h i := by
    rw [cells, getD_overwrite _ _ _ (h.1.symm ▸ hfits), getD_overwrite _ _ _ (h.2.symm ▸ hfits)]
    split <;> rfl

theorem packAuxChroma_spec (frame : Yuv444Frame) :
    Paired (frame.width / 2 * (frame.height / 2)) (packAuxChroma frame) ∧
      ∀ i < frame.width / 2 * (frame.height / 2),
        cells (packAuxChroma frame) i = auxChromaAt frame i := by
  have hrows : Fills (Paired (frame.width / 2 * (frame.height / 2))) cells
      (fun planes => (List.range (frame.height / 2)).foldl (fun planes cy =>
        (List.range (frame.width / 2)).foldl (fun planes cx =>
          (overwrite planes.1 (cy * (frame.width / 2) + cx) 1 fun _ =>
              frame.u.getD (cy * 2 * frame.width + (cx * 2 + 1)) 0,
            overwrite planes.2 (cy * (frame.width / 2) + cx) 1 fun _ =>
              frame.v.getD (cy * 2 * frame.width + (cx * 2 + 1)) 0)) planes) planes)
      0 (0 + frame.width / 2 * (frame.height / 2)) (auxChromaAt frame) := by
    refine Fills.range _ fun cy hcy => ?_
    have hrow : Fills (Paired (frame.width / 2 * (frame.height / 2))) cells
        (fun planes => (List.range (frame.width / 2)).foldl (fun planes cx =>
          (overwrite planes.1 (cy * (frame.width / 2) + cx) 1 fun _ =>
              frame.u.getD (cy * 2 * frame.width + (cx * 2 + 1)) 0,
            overwrite planes.2 (cy * (frame.width / 2) + cx) 1 fun _ =>
              frame.v.getD (cy * 2 * frame.width + (cx * 2 + 1)) 0)) planes)
        (cy * (frame.width / 2)) (cy * (frame.width / 2) + 1 * (frame.width / 2))
        (auxChromaAt frame) := by
      refine Fills.range _ fun cx hcx => ?_
      have hfits := row_le (w := frame.width / 2) hcy
      have hwrite := fills_pair (show cy * (frame.width / 2) + cx + 1 ≤
        frame.width / 2 * (frame.height / 2) by omega)
        (frame.u.getD (cy * 2 * frame.width + (cx * 2 + 1)) 0,
          frame.v.getD (cy * 2 * frame.width + (cx * 2 + 1)) 0)
      rw [Nat.one_mul, Nat.one_mul, ← Nat.add_assoc]
      refine hwrite.congr fun i hle hlt => ?_
      rw [show i = cy * (frame.width / 2) + cx by omega, auxChromaAt, row_of_address hcx,
        column_of_address hcx]
    have hend : 0 + frame.width / 2 * (cy + 1) =
        cy * (frame.width / 2) + 1 * (frame.width / 2) := by
      rw [Nat.zero_add, Nat.mul_succ, Nat.mul_comm, Nat.one_mul]
    rw [Nat.zero_add, Nat.mul_comm (frame.width / 2) cy, hend]
    exact hrow
  rw [Nat.zero_add] at hrows
  have hstart : Paired (frame.width / 2 * (frame.height / 2))
      (List.replicate (frame.width / 2 * (frame.height / 2)) 128,
        List.replicate (frame.width / 2 * (frame.height / 2)) 128) :=
    ⟨List.length_replicate, List.length_replicate⟩
  refine ⟨hrows.keeps _ hstart, fun i hi => ?_⟩
  exact (hrows.read_eq _ hstart i).trans (if_pos ⟨Nat.zero_le i, hi⟩)

end Auxiliary

/-! ### What a receiver gets back -/

/-- The row of the auxiliary luma plane that has an odd row of U. That of V is eight rows below. -/
def auxRowOf (y : ℕ) : ℕ := y / 2 / 8 * 16 + y / 2 % 8

/-- The receiver's map for U: odd rows from the luma plane, odd columns from the U plane. -/
def recoverU (aux : Yuv420Frame) (x y : ℕ) : UInt8 :=
  if y % 2 = 1 then aux.y.getD (auxRowOf y * aux.width + x) 0
  else aux.u.getD (y / 2 * (aux.width / 2) + x / 2) 0

/-- Where a receiver finds the samples of the second plane. -/
def recoverV (aux : Yuv420Frame) (x y : ℕ) : UInt8 :=
  if y % 2 = 1 then aux.y.getD ((auxRowOf y + 8) * aux.width + x) 0
  else aux.v.getD (y / 2 * (aux.width / 2) + x / 2) 0

/-- The sum of a 2×2 block. -/
def blockSum (plane : List UInt8) (width cx cy : ℕ) : ℕ :=
  (plane.getD (2 * cy * width + 2 * cx) 0).toNat +
    (plane.getD (2 * cy * width + (2 * cx + 1)) 0).toNat +
    (plane.getD ((2 * cy + 1) * width + 2 * cx) 0).toNat +
    (plane.getD ((2 * cy + 1) * width + (2 * cx + 1)) 0).toNat

/-- Four times the average is the sum, up to rounding. -/
def RoundedAverage (average : UInt8) (sum : ℕ) : Prop :=
  4 * average.toNat ≤ sum + 2 ∧ sum ≤ 4 * average.toNat + 1

theorem roundedAverage_blockAverage (plane : List UInt8) (width cx cy : ℕ) :
    RoundedAverage (blockAverage plane (cy * 2 * width) ((cy * 2 + 1) * width) (2 * cx))
      (blockSum plane width cx cy) := by
  rw [RoundedAverage, blockAverage, blockSum, Nat.mul_comm cy 2]
  have h00 := (plane.getD (2 * cy * width + 2 * cx) 0).toNat_lt
  have h01 := (plane.getD (2 * cy * width + (2 * cx + 1)) 0).toNat_lt
  have h10 := (plane.getD ((2 * cy + 1) * width + 2 * cx) 0).toNat_lt
  have h11 := (plane.getD ((2 * cy + 1) * width + (2 * cx + 1)) 0).toNat_lt
  rw [UInt8.toNat_ofNat']
  omega

/-- What the two views carry of a frame. -/
structure Recoverable (frame : Yuv444Frame) (main aux : Yuv420Frame) : Prop where
  luma : main.y = frame.y
  chroma : ∀ x < frame.width, ∀ y < frame.height, x % 2 = 1 ∨ y % 2 = 1 →
    recoverU aux x y = frame.u.getD (y * frame.width + x) 0 ∧
      recoverV aux x y = frame.v.getD (y * frame.width + x) 0
  average : ∀ cx < frame.width / 2, ∀ cy < frame.height / 2,
    RoundedAverage (main.u.getD (cy * (frame.width / 2) + cx) 0)
        (blockSum frame.u frame.width cx cy) ∧
      RoundedAverage (main.v.getD (cy * (frame.width / 2) + cx) 0)
        (blockSum frame.v frame.width cx cy)

section Recovery

variable {frame : Yuv444Frame}

/-- Odd rows come back from the luma plane of the auxiliary view. -/
theorem recover_odd_row (hheight : frame.height % 16 = 0) {x y : ℕ} (hx : x < frame.width)
    (hy : y < frame.height) (hodd : y % 2 = 1) :
    recoverU (packAuxiliaryView frame) x y = frame.u.getD (y * frame.width + x) 0 ∧
      recoverV (packAuxiliaryView frame) x y = frame.v.getD (y * frame.width + x) 0 := by
  obtain ⟨hlength, hcells⟩ := packAuxLuma_spec hheight
  have htake : (packAuxiliaryView frame).y = packAuxLuma frame := by
    rw [packAuxiliaryView, List.take_of_length_le]
    rw [hlength, Nat.mul_comm]
  have hwidth : (packAuxiliaryView frame).width = frame.width := rfl
  have hread : ∀ r < frame.height, (packAuxLuma frame).getD (r * frame.width + x) 0 =
      if r % 16 < 8 then frame.u.getD ((2 * uRows r + 1) * frame.width + x) 0
      else frame.v.getD ((2 * vRows r + 1) * frame.width + x) 0 := by
    intro r hr
    have hfits := row_le (w := frame.width) hr
    rw [hcells _ (by omega), auxLumaAt, row_of_address hx, column_of_address hx]
  have hu : 2 * uRows (auxRowOf y) + 1 = y := by
    rw [uRows, auxRowOf]
    omega
  have hv : 2 * vRows (auxRowOf y + 8) + 1 = y := by
    rw [vRows, auxRowOf]
    omega
  constructor
  · rw [recoverU, if_pos hodd, htake, hwidth, hread _ (by rw [auxRowOf]; omega),
      if_pos (by rw [auxRowOf]; omega), hu]
  · rw [recoverV, if_pos hodd, htake, hwidth, hread _ (by rw [auxRowOf]; omega),
      if_neg (by rw [auxRowOf]; omega), hv]

/-- Odd columns of even rows come back from its chroma planes. -/
theorem recover_odd_column {x y : ℕ} (hx : x < frame.width) (hwidth : frame.width % 2 = 0)
    (hheight : frame.height % 16 = 0) (hy : y < frame.height) (hodd : x % 2 = 1)
    (heven : y % 2 ≠ 1) :
    recoverU (packAuxiliaryView frame) x y = frame.u.getD (y * frame.width + x) 0 ∧
      recoverV (packAuxiliaryView frame) x y = frame.v.getD (y * frame.width + x) 0 := by
  obtain ⟨-, hcells⟩ := packAuxChroma_spec frame
  have hcx : x / 2 < frame.width / 2 := by omega
  have hcy : y / 2 < frame.height / 2 := by omega
  have hfits := row_le (w := frame.width / 2) hcy
  have hcell := hcells (y / 2 * (frame.width / 2) + x / 2) (by omega)
  rw [auxChromaAt, row_of_address hcx, column_of_address hcx, show y / 2 * 2 = y by omega,
    show x / 2 * 2 + 1 = x by omega] at hcell
  constructor
  · rw [recoverU, if_neg heven]
    exact congrArg Prod.fst hcell
  · rw [recoverV, if_neg heven]
    exact congrArg Prod.snd hcell

/-- **The two views keep what they should**: all of the luma, the chroma of odd rows and odd
columns, and of the rest the rounded averages. -/
theorem packDualViews_lossless (extension : Extension) {width height : ℕ}
    (hframe : frame.Shaped width height) (hwidth : width % 2 = 0) (hheight : height % 16 = 0) :
    ∃ main aux, packDualViews extension frame = some (main, aux) ∧ Recoverable frame main aux := by
  obtain rfl := hframe.width_eq
  obtain rfl := hframe.height_eq
  have heven : frame.height % 2 = 0 := by omega
  obtain ⟨u, hu, -, hucells⟩ := subsampleChroma420_spec extension hwidth heven hframe.length_u
  obtain ⟨v, hv, -, hvcells⟩ := subsampleChroma420_spec extension hwidth heven hframe.length_v
  refine ⟨⟨frame.y, u, v, frame.width, frame.height⟩, packAuxiliaryView frame, ?_, rfl, ?_, ?_⟩
  · rw [packDualViews, packMainView, hu, hv]
    rfl
  · intro x hx y hy hodd
    by_cases hrow : y % 2 = 1
    · exact recover_odd_row hheight hx hy hrow
    · exact recover_odd_column hx hwidth hheight hy (hodd.resolve_right hrow) hrow
  · intro cx hcx cy hcy
    have hfits := row_le (w := frame.width / 2) hcy
    constructor
    · rw [hucells _ (by omega), averageAt_eq hcx]
      exact roundedAverage_blockAverage ..
    · rw [hvcells _ (by omega), averageAt_eq hcx]
      exact roundedAverage_blockAverage ..

/-- A small frame in which no two samples of a plane are the same. -/
def gradient : Yuv444Frame where
  y := (List.range 64).map UInt8.ofNat
  u := (List.range 64).map fun i => UInt8.ofNat (64 + i)
  v := (List.range 64).map fun i => UInt8.ofNat (128 + i)
  width := 4
  height := 16

theorem gradient_lossless :
    ∃ main aux, packDualViews .avx2 gradient = some (main, aux) ∧
      Recoverable gradient main aux := by
  have hshape : gradient.Shaped 4 16 :=
    ⟨rfl, rfl, by decide, by decide, by decide⟩
  exact packDualViews_lossless .avx2 hshape (by decide) (by decide)

end Recovery

end Graphics

end Cheirizo
