import Cheirizo.Lib.Fill
import Cheirizo.Lib.Simd

/-!
# From BGRA to YUV

The colour conversion of `egfx/color/convert.rs`: one sample at a time, and eight at a time with
AVX2 or NEON. The vector code is modelled instruction by instruction.

## How AVX2 loses half a group

Narrowing eight 32-bit lanes to bytes packs each 128-bit half on its own, so afterwards the lower
half of the register has only the values of the first four pixels. The code takes all eight bytes
from that half: pixels 4 to 7 of a group get the colours of pixels 0 to 3.

## Main definitions

* `convertBgraSampleToYuv`, `bgraToYuv444Scalar` — the reference
* `bgraToYuv444Avx2`, `bgraToYuv444Neon` — the vector code
* `bgraToYuv444` — the dispatch

## Main results

* `fills_scalar`, `fills_neon`, `fills_avx2` — what each of them writes
* `simd_eq_scalar_iff` — when all three agree
-/

namespace Cheirizo

namespace Graphics

open Simd

/-! ### Samples -/

/-- How colours are turned into brightness and two differences. -/
inductive ColorMatrix where
  | bt601
  | bt709
  | openH264
  deriving DecidableEq, Repr

namespace ColorMatrix

/-- The weights of the brightness, times 65536. -/
def yCoefficientsFixed : ColorMatrix → Int32 × Int32 × Int32
  | bt601 => (19595, 38470, 7471)
  | bt709 => (13933, 46871, 4732)
  | openH264 => (16896, 33024, 6400)

/-- The weights of the first difference. -/
def uCoefficientsFixed : ColorMatrix → Int32 × Int32 × Int32
  | bt601 => (-11056, -21712, 32768)
  | bt709 => (-7508, -25260, 32768)
  | openH264 => (-9728, -18944, 28672)

/-- The weights of the second difference. -/
def vCoefficientsFixed : ColorMatrix → Int32 × Int32 × Int32
  | bt601 => (32768, -27440, -5328)
  | bt709 => (32768, -29764, -3004)
  | openH264 => (28672, -24064, -4608)

/-- OpenH264 expects the range of television. -/
def isLimitedRange : ColorMatrix → Bool
  | openH264 => true
  | _ => false

end ColorMatrix

/-- A pixel, without its alpha. -/
structure BgraSample where
  r : Int32
  g : Int32
  b : Int32
  deriving DecidableEq, Repr

/-- A byte as a 32-bit value. -/
def asI32 (b : UInt8) : Int32 := b.toUInt32.toInt32

/-- The lowest byte of a value. -/
def asU8 (x : Int32) : UInt8 := x.toUInt32.toUInt8

/-- The colour of a pixel. The alpha channel is not read. -/
def BgraSample.fromBgraSlice (bgra : List UInt8) (pixelIndex : ℕ) : BgraSample where
  b := asI32 (bgra.getD (pixelIndex * 4) 0)
  g := asI32 (bgra.getD (pixelIndex * 4 + 1) 0)
  r := asI32 (bgra.getD (pixelIndex * 4 + 2) 0)

/-- A weighted sum in 16.16 fixed point, rounded. -/
def weigh (k : Int32 × Int32 × Int32) (sample : BgraSample) : Int32 :=
  (k.1 * sample.r + k.2.1 * sample.g + k.2.2 * sample.b + 32768) >>> 16

/-- The three components of a pixel. -/
abbrev Yuv := UInt8 × UInt8 × UInt8

/-- A pixel, converted in whole numbers. -/
def convertBgraSampleToYuv (sample : BgraSample) (matrix : ColorMatrix) : Yuv :=
  let y := weigh matrix.yCoefficientsFixed sample
  let u := weigh matrix.uCoefficientsFixed sample + 128
  let v := weigh matrix.vCoefficientsFixed sample + 128
  if matrix.isLimitedRange then
    (asU8 (clamp (y + 16) 16 235), asU8 (clamp u 16 240), asU8 (clamp v 16 240))
  else (asU8 (clamp y 0 255), asU8 (clamp u 0 255), asU8 (clamp v 0 255))

/-- The conversion that the vector code repeats for its last pixels. -/
def convertFullRange (sample : BgraSample) (matrix : ColorMatrix) : Yuv :=
  (asU8 (clamp (weigh matrix.yCoefficientsFixed sample) 0 255),
    asU8 (clamp (weigh matrix.uCoefficientsFixed sample + 128) 0 255),
    asU8 (clamp (weigh matrix.vCoefficientsFixed sample + 128) 0 255))

/-! ### Frames -/

/-- A frame with a value of each plane for every pixel. -/
structure Yuv444Frame where
  y : List UInt8
  u : List UInt8
  v : List UInt8
  width : ℕ
  height : ℕ
  deriving DecidableEq, Repr

namespace Yuv444Frame

/-- A grey picture. -/
def new (width height : ℕ) : Yuv444Frame where
  y := List.replicate (width * height) 0
  u := List.replicate (width * height) 128
  v := List.replicate (width * height) 128
  width
  height

/-- How many pixels there are. -/
def pixelCount (frame : Yuv444Frame) : ℕ := frame.width * frame.height

/-- Write a run of pixels to all three planes. -/
def store (frame : Yuv444Frame) (base count : ℕ) (pixels : ℕ → Yuv) : Yuv444Frame :=
  { frame with
    y := overwrite frame.y base count fun j => (pixels j).1
    u := overwrite frame.u base count fun j => (pixels j).2.1
    v := overwrite frame.v base count fun j => (pixels j).2.2 }

end Yuv444Frame

/-- The conversion pixel by pixel. -/
def bgraToYuv444Scalar (bgra : List UInt8) (frame : Yuv444Frame) (matrix : ColorMatrix) :
    Yuv444Frame :=
  (List.range frame.pixelCount).foldl
    (fun frame i => frame.store i 1 fun _ =>
      convertBgraSampleToYuv (.fromBgraSlice bgra i) matrix) frame

/-- The last pixels, which do not make up a group of eight. -/
def convertRemainder (bgra : List UInt8) (matrix : ColorMatrix) (start count : ℕ)
    (frame : Yuv444Frame) : Yuv444Frame :=
  (List.range' start count).foldl
    (fun frame i => frame.store i 1 fun _ => convertFullRange (.fromBgraSlice bgra i) matrix) frame

/-! ### AVX2 -/

namespace Avx2

/-- The selectors of a channel: its byte of each of the four pixels of a half, then zeros. -/
def channelMask (channel : Fin 4) : M128 := fun i =>
  if i.val < 4 then UInt8.ofNat (4 * i + channel) else 255

/-- One channel of eight pixels, in 32-bit lanes. -/
def widen (pixels : M256) (mask : M128) : M256 :=
  let lo := mmShuffleEpi8 pixels.lo mask
  let hi := mmShuffleEpi8 pixels.hi mask
  let packed := mmUnpackloEpi32 lo hi
  let words := mmUnpackloEpi8 packed mmSetzero
  ⟨mmUnpackloEpi16 words mmSetzero, mmUnpackhiEpi16 words mmSetzero⟩

/-- A weighted sum of the channels, before it is shifted into range. -/
def weighLanes (k : Int32 × Int32 × Int32) (r g b : M256) : M256 :=
  let kr := both mmMulloEpi32 r (splat (mmSet1Epi32 k.1))
  let kg := both mmMulloEpi32 g (splat (mmSet1Epi32 k.2.1))
  let kb := both mmMulloEpi32 b (splat (mmSet1Epi32 k.2.2))
  let sum := both mmAddEpi32 (both mmAddEpi32 kr kg) kb
  let sum := both mmAddEpi32 sum (splat (mmSet1Epi32 32768))
  ⟨mmSraiEpi32 sum.lo 16, mmSraiEpi32 sum.hi 16⟩

/-- The differences are centred. -/
def offset128 (value : M256) : M256 := both mmAddEpi32 value (splat (mmSet1Epi32 128))

/-- What is out of range is moved to its bounds. -/
def clampLanes (value : M256) : M256 :=
  both mmMinEpi32 (both mmMaxEpi32 value (splat mmSetzero)) (splat (mmSet1Epi32 255))

/-- The bytes 0 to 3 and 8 to 11 of a half. -/
def resultMask : M128 := fun i =>
  if i.val < 4 then UInt8.ofNat i else if i.val < 8 then UInt8.ofNat (i + 4) else 255

/-- Eight 32-bit lanes as bytes, by the lower half of the packed register. -/
def narrow (value : M256) : M128 :=
  let words := both mmPacksEpi32 value value
  let bytes := both mmPackusEpi16 words words
  mmShuffleEpi8 bytes.lo resultMask

/-- A group of eight pixels. -/
def convertGroup (pixels : M256) (matrix : ColorMatrix) (j : ℕ) : Yuv :=
  let b := widen pixels (channelMask 0)
  let g := widen pixels (channelMask 1)
  let r := widen pixels (channelMask 2)
  let y := clampLanes (weighLanes matrix.yCoefficientsFixed r g b)
  let u := clampLanes (offset128 (weighLanes matrix.uCoefficientsFixed r g b))
  let v := clampLanes (offset128 (weighLanes matrix.vCoefficientsFixed r g b))
  (narrow y (Fin.ofNat 16 j), narrow u (Fin.ofNat 16 j), narrow v (Fin.ofNat 16 j))

end Avx2

/-- Eight pixels at a time, and the rest one by one. -/
def bgraToYuv444Avx2 (bgra : List UInt8) (frame : Yuv444Frame) (matrix : ColorMatrix) :
    Yuv444Frame :=
  let simdCount := frame.pixelCount / 8
  let remainder := frame.pixelCount % 8
  convertRemainder bgra matrix (simdCount * 8) remainder
    ((List.range simdCount).foldl
      (fun frame i => frame.store (i * 8) 8
        (Avx2.convertGroup (mm256Loadu bgra (i * 8 * 4)) matrix)) frame)

/-! ### NEON -/

namespace Neon

/-- A channel of eight pixels, in 32-bit lanes: the lower four, then the upper four. -/
def widen (channel : Fin 8 → UInt8) : (Fin 4 → Int32) × (Fin 4 → Int32) :=
  let words : Fin (4 + 4) → UInt16 := convertLanes UInt8.toUInt16 channel
  (convertLanes (fun x => x.toUInt32.toInt32) (vgetLow words),
    convertLanes (fun x => x.toUInt32.toInt32) (vgetHigh words))

/-- The weighed sum, rounded. -/
def weighLanes (k : Int32 × Int32 × Int32) (r g b : Fin 4 → Int32) : Fin 4 → Int32 :=
  let sum := lanewise (· * ·) r (vdupq k.1)
  let sum := vmlaqS32 sum g (vdupq k.2.1)
  let sum := vmlaqS32 sum b (vdupq k.2.2)
  let sum := lanewise (· + ·) sum (vdupq 32768)
  convertLanes (fun x : Int32 => x >>> 16) sum

/-- The differences are centred. -/
def offset128 (value : Fin 4 → Int32) : Fin 4 → Int32 := lanewise (· + ·) value (vdupq 128)

/-- What is out of range is moved to its bounds. -/
def clampLanes (value : Fin 4 → Int32) : Fin 4 → Int32 :=
  lanewise min (lanewise max value (vdupq 0)) (vdupq 255)

/-- Twice four 32-bit lanes as eight bytes. -/
def narrow (lo hi : Fin 4 → Int32) : Fin 8 → UInt8 :=
  vqmovunS16 (vcombine (convertLanes Int32.toInt16 lo) (convertLanes Int32.toInt16 hi))

/-- A group of eight pixels. -/
def convertGroup (bgra : List UInt8) (address : ℕ) (matrix : ColorMatrix) (j : ℕ) : Yuv :=
  let b := widen (vld4U8 bgra address 0)
  let g := widen (vld4U8 bgra address 1)
  let r := widen (vld4U8 bgra address 2)
  let y := narrow (clampLanes (weighLanes matrix.yCoefficientsFixed r.1 g.1 b.1))
    (clampLanes (weighLanes matrix.yCoefficientsFixed r.2 g.2 b.2))
  let u := narrow (clampLanes (offset128 (weighLanes matrix.uCoefficientsFixed r.1 g.1 b.1)))
    (clampLanes (offset128 (weighLanes matrix.uCoefficientsFixed r.2 g.2 b.2)))
  let v := narrow (clampLanes (offset128 (weighLanes matrix.vCoefficientsFixed r.1 g.1 b.1)))
    (clampLanes (offset128 (weighLanes matrix.vCoefficientsFixed r.2 g.2 b.2)))
  (y (Fin.ofNat 8 j), u (Fin.ofNat 8 j), v (Fin.ofNat 8 j))

end Neon

/-- Eight pixels at a time, and the rest one by one. -/
def bgraToYuv444Neon (bgra : List UInt8) (frame : Yuv444Frame) (matrix : ColorMatrix) :
    Yuv444Frame :=
  let simdCount := frame.pixelCount / 8
  let remainder := frame.pixelCount % 8
  convertRemainder bgra matrix (simdCount * 8) remainder
    ((List.range simdCount).foldl
      (fun frame i => frame.store (i * 8) 8 (Neon.convertGroup bgra (i * 8 * 4) matrix)) frame)

/-! ### Dispatch -/

/-- The vector extension the code was built for and found. -/
inductive Extension where
  | none
  | avx2
  | neon
  deriving DecidableEq, Repr

/-- The conversion. A buffer of another size is a programming error. -/
def bgraToYuv444 (extension : Extension) (bgra : List UInt8) (width height : ℕ)
    (matrix : ColorMatrix) : Option Yuv444Frame :=
  if bgra.length = width * height * 4 then
    let frame := Yuv444Frame.new width height
    if matrix.isLimitedRange then some (bgraToYuv444Scalar bgra frame matrix)
    else
      match extension with
      | .avx2 => some (bgraToYuv444Avx2 bgra frame matrix)
      | .neon => some (bgraToYuv444Neon bgra frame matrix)
      | .none => some (bgraToYuv444Scalar bgra frame matrix)
  else none

/-! ### One group -/

theorem convertFullRange_eq {matrix : ColorMatrix} (h : matrix.isLimitedRange = false)
    (sample : BgraSample) :
    convertFullRange sample matrix = convertBgraSampleToYuv sample matrix := by
  rw [convertBgraSampleToYuv, h, if_neg Bool.false_ne_true]
  rfl

namespace Avx2

theorem word32_widen_lo (pixels : M256) (channel i : Fin 4) :
    word32 (widen pixels (channelMask channel)).lo i =
      asI32 (pixels.lo (Fin.ofNat 16 (4 * i + channel))) := by
  fin_cases channel <;> fin_cases i <;> exact word32_zeroExtend rfl rfl rfl

theorem word32_weighLanes_lo (k : Int32 × Int32 × Int32) (r g b : M256) (i : Fin 4) :
    word32 (weighLanes k r g b).lo i =
      weigh k ⟨word32 r.lo i, word32 g.lo i, word32 b.lo i⟩ := by
  simp only [weighLanes, both, splat, mmSraiEpi32, mmAddEpi32, mmMulloEpi32, mmSet1Epi32,
    word32_ofWord32, weigh]
  rw [Int32.mul_comm k.1, Int32.mul_comm k.2.1, Int32.mul_comm k.2.2]

theorem word32_clampLanes_lo (value : M256) (i : Fin 4) :
    word32 (clampLanes value).lo i = clamp (word32 value.lo i) 0 255 := by
  have hzero : word32 mmSetzero i = 0 := by
    revert i
    decide
  simp only [clampLanes, both, splat, mmMaxEpi32, mmMinEpi32, mmSet1Epi32, word32_ofWord32, hzero,
    min_max_eq_clamp]

theorem word32_offset128_lo (value : M256) (i : Fin 4) :
    word32 (offset128 value).lo i = word32 value.lo i + 128 := by
  simp only [offset128, both, splat, mmAddEpi32, mmSet1Epi32, word32_ofWord32]

/-- **The upper half of the lanes is lost.** -/
theorem narrow_eq (value : M256) (j : Fin 8) :
    narrow value (Fin.ofNat 16 j) =
      saturateU8 (saturateI16 (word32 value.lo (Fin.ofNat 4 j))).toUInt16.toInt16 := by
  have hword : ∀ i : Fin 8, word16 (mmPacksEpi32 value.lo value.lo) i =
      (saturateI16 (word32 value.lo (Fin.ofNat 4 i))).toUInt16 := by
    intro i
    rw [mmPacksEpi32, word16_ofWord16]
    fin_cases i <;> rfl
  have hbyte : narrow value (Fin.ofNat 16 j) =
      saturateU8 (word16 (mmPacksEpi32 value.lo value.lo) (Fin.ofNat 8 (j % 4))).toInt16 := by
    fin_cases j <;> rfl
  rw [hbyte, hword]
  fin_cases j <;> rfl

/-- The sample whose channels are those of a lane. -/
theorem sample_lane_lo (bgra : List UInt8) (g : ℕ) (i : Fin 4) :
    (⟨word32 (widen (mm256Loadu bgra (g * 8 * 4)) (channelMask 2)).lo i,
        word32 (widen (mm256Loadu bgra (g * 8 * 4)) (channelMask 1)).lo i,
        word32 (widen (mm256Loadu bgra (g * 8 * 4)) (channelMask 0)).lo i⟩ : BgraSample) =
      .fromBgraSlice bgra (g * 8 + i) := by
  have hbyte : ∀ c : Fin 4, word32 (widen (mm256Loadu bgra (g * 8 * 4)) (channelMask c)).lo i =
      asI32 (bgra.getD ((g * 8 + i) * 4 + c) 0) := by
    intro c
    have hsmall : (4 * (i : ℕ) + c) % 16 = 4 * i + c := by omega
    have haddr : g * 8 * 4 + (4 * (i : ℕ) + c) = (g * 8 + i) * 4 + c := by omega
    rw [word32_widen_lo]
    show asI32 (bgra.getD (g * 8 * 4 + (4 * (i : ℕ) + c) % 16) 0) = _
    rw [hsmall, haddr]
  rw [hbyte, hbyte, hbyte]
  rfl

/-- A clamped lane, narrowed. -/
theorem narrow_clampLanes (value : M256) {j : ℕ} (hj : j < 8) :
    narrow (clampLanes value) (Fin.ofNat 16 j) =
      asU8 (clamp (word32 value.lo (Fin.ofNat 4 j)) 0 255) := by
  have hnarrow := narrow_eq (clampLanes value) ⟨j, hj⟩
  rw [word32_clampLanes_lo, ← toInt32_toUInt8_clamp, saturateU8_saturateI16] at hnarrow
  exact hnarrow

/-- **A group of AVX2** converts its first four pixels, twice. -/
theorem convertGroup_eq (bgra : List UInt8) (g : ℕ) {matrix : ColorMatrix}
    (hmatrix : matrix.isLimitedRange = false) {j : ℕ} (hj : j < 8) :
    convertGroup (mm256Loadu bgra (g * 8 * 4)) matrix j =
      convertBgraSampleToYuv (.fromBgraSlice bgra (g * 8 + j % 4)) matrix := by
  have hsample := sample_lane_lo bgra g (Fin.ofNat 4 j)
  rw [← convertFullRange_eq hmatrix]
  simp only [convertGroup, narrow_clampLanes _ hj, word32_offset128_lo, word32_weighLanes_lo,
    hsample]
  rfl

end Avx2

namespace Neon

/-- Both halves of the lanes are kept. -/
theorem narrow_eq (lo hi : Fin 4 → Int32) {j : ℕ} (hj : j < 8) :
    narrow lo hi (Fin.ofNat 8 j) =
      if j < 4 then saturateU8 (lo (Fin.ofNat 4 j)).toInt16
      else saturateU8 (hi (Fin.ofNat 4 j)).toInt16 := by
  have hcases : ∀ i : Fin 8, narrow lo hi i =
      if i.val < 4 then saturateU8 (lo (Fin.ofNat 4 i)).toInt16
      else saturateU8 (hi (Fin.ofNat 4 i)).toInt16 := by
    intro i
    fin_cases i <;> rfl
  have hsmall : (Fin.ofNat 8 j).val = j := Nat.mod_eq_of_lt hj
  rw [hcases, hsmall]

theorem clampLanes_eq (value : Fin 4 → Int32) (i : Fin 4) :
    clampLanes value i = clamp (value i) 0 255 :=
  min_max_eq_clamp _

theorem weighLanes_eq (k : Int32 × Int32 × Int32) (r g b : Fin 4 → Int32) (i : Fin 4) :
    weighLanes k r g b i = weigh k ⟨r i, g i, b i⟩ := by
  rw [weigh, Int32.mul_comm k.1, Int32.mul_comm k.2.1, Int32.mul_comm k.2.2]
  rfl

/-- Both halves of the clamped lanes, narrowed. -/
theorem narrow_clampLanes (lo hi : Fin 4 → Int32) {j : ℕ} (hj : j < 8) :
    narrow (clampLanes lo) (clampLanes hi) (Fin.ofNat 8 j) =
      asU8 (clamp (if j < 4 then lo (Fin.ofNat 4 j) else hi (Fin.ofNat 4 j)) 0 255) := by
  have hbyte : ∀ x : Int32, saturateU8 (clamp x 0 255).toInt16 = asU8 (clamp x 0 255) := by
    intro x
    have hx := saturateU8_toInt16 (asU8 (clamp x 0 255))
    rwa [asU8, toInt32_toUInt8_clamp] at hx
  rw [narrow_eq _ _ hj, clampLanes_eq, clampLanes_eq, hbyte, hbyte]
  split
  · rfl
  · rfl

/-- The sample whose channels are those of a lane. -/
theorem sample_lane (bgra : List UInt8) (g : ℕ) {j : ℕ} (hj : j < 8)
    (half : (Fin 4 → Int32) × (Fin 4 → Int32) → Fin 4 → Int32)
    (hhalf : half = if j < 4 then Prod.fst else Prod.snd) :
    (⟨half (widen (vld4U8 bgra (g * 8 * 4) 2)) (Fin.ofNat 4 j),
        half (widen (vld4U8 bgra (g * 8 * 4) 1)) (Fin.ofNat 4 j),
        half (widen (vld4U8 bgra (g * 8 * 4) 0)) (Fin.ofNat 4 j)⟩ : BgraSample) =
      .fromBgraSlice bgra (g * 8 + j) := by
  have hbyte : ∀ b : UInt8, b.toUInt16.toUInt32.toInt32 = asI32 b := forall_byte (by decide +kernel)
  have hlane : ∀ c, half (widen (vld4U8 bgra (g * 8 * 4) c)) (Fin.ofNat 4 j) =
      asI32 (bgra.getD ((g * 8 + j) * 4 + c) 0) := by
    intro c
    rw [hhalf]
    split
    · have haddr : g * 8 * 4 + 4 * (j % 4) + c = (g * 8 + j) * 4 + c := by omega
      refine (hbyte _).trans (congrArg asI32 ?_)
      show bgra.getD (g * 8 * 4 + 4 * (j % 4) + c) 0 = _
      rw [haddr]
    · have haddr : g * 8 * 4 + 4 * (4 + j % 4) + c = (g * 8 + j) * 4 + c := by omega
      refine (hbyte _).trans (congrArg asI32 ?_)
      show bgra.getD (g * 8 * 4 + 4 * (4 + j % 4) + c) 0 = _
      rw [haddr]
  rw [hlane, hlane, hlane]
  rfl

/-- **A group of NEON** converts its eight pixels. -/
theorem convertGroup_eq (bgra : List UInt8) (g : ℕ) {matrix : ColorMatrix}
    (hmatrix : matrix.isLimitedRange = false) {j : ℕ} (hj : j < 8) :
    convertGroup bgra (g * 8 * 4) matrix j =
      convertBgraSampleToYuv (.fromBgraSlice bgra (g * 8 + j)) matrix := by
  rw [← convertFullRange_eq hmatrix]
  by_cases h : j < 4
  · have hsample := sample_lane bgra g hj Prod.fst (if_pos h).symm
    simp only [convertGroup, narrow_clampLanes _ _ hj, if_pos h, offset128, lanewise, vdupq,
      weighLanes_eq, hsample]
    rfl
  · have hsample := sample_lane bgra g hj Prod.snd (if_neg h).symm
    simp only [convertGroup, narrow_clampLanes _ _ hj, if_neg h, offset128, lanewise, vdupq,
      weighLanes_eq, hsample]
    rfl

end Neon

/-! ### Whole frames -/

namespace Yuv444Frame

/-- The planes have a value for every pixel. -/
structure Shaped (width height : ℕ) (frame : Yuv444Frame) : Prop where
  width_eq : frame.width = width
  height_eq : frame.height = height
  length_y : frame.y.length = width * height
  length_u : frame.u.length = width * height
  length_v : frame.v.length = width * height

/-- The components of a pixel. -/
def pixel (frame : Yuv444Frame) (i : ℕ) : Yuv :=
  (frame.y.getD i 0, frame.u.getD i 0, frame.v.getD i 0)

theorem shaped_new (width height : ℕ) : Shaped width height (new width height) where
  width_eq := rfl
  height_eq := rfl
  length_y := List.length_replicate
  length_u := List.length_replicate
  length_v := List.length_replicate

theorem Shaped.pixelCount {width height : ℕ} {frame : Yuv444Frame} (h : Shaped width height frame) :
    frame.pixelCount = width * height := by
  rw [Yuv444Frame.pixelCount, h.width_eq, h.height_eq]

/-- Frames of one shape with the same pixels are the same. -/
theorem Shaped.ext {width height : ℕ} {frame frame' : Yuv444Frame} (h : Shaped width height frame)
    (h' : Shaped width height frame')
    (hpixel : ∀ i < width * height, frame.pixel i = frame'.pixel i) : frame = frame' := by
  have hy := ext_getD h.length_y h'.length_y 0 fun i hi => congrArg Prod.fst (hpixel i hi)
  have hu := ext_getD h.length_u h'.length_u 0 fun i hi =>
    congrArg (fun p : Yuv => p.2.1) (hpixel i hi)
  have hv := ext_getD h.length_v h'.length_v 0 fun i hi =>
    congrArg (fun p : Yuv => p.2.2) (hpixel i hi)
  have hwidth := h.width_eq.trans h'.width_eq.symm
  have hheight := h.height_eq.trans h'.height_eq.symm
  cases frame
  cases frame'
  simp_all

theorem fills_store {width height : ℕ} (base count : ℕ) (hfits : base + count ≤ width * height)
    (pixels : ℕ → Yuv) :
    Fills (Shaped width height) pixel (fun frame => frame.store base count pixels) base
      (base + count) fun i => pixels (i - base) where
  keeps frame h := by
    refine ⟨h.width_eq, h.height_eq, ?_, ?_, ?_⟩
    · rw [store, length_overwrite, h.length_y]
    · rw [store, length_overwrite, h.length_u]
    · rw [store, length_overwrite, h.length_v]
  read_eq frame h i := by
    rw [pixel, store, getD_overwrite _ _ _ (h.length_y ▸ hfits),
      getD_overwrite _ _ _ (h.length_u ▸ hfits), getD_overwrite _ _ _ (h.length_v ▸ hfits)]
    split <;> rfl

end Yuv444Frame

open Yuv444Frame

section Loops

variable {bgra : List UInt8} {width height : ℕ} {matrix : ColorMatrix}

/-- The reference value of a pixel. -/
def reference (bgra : List UInt8) (matrix : ColorMatrix) (i : ℕ) : Yuv :=
  convertBgraSampleToYuv (.fromBgraSlice bgra i) matrix

/-- What AVX2 writes for a pixel: in a full group, the value of a pixel of its first half. -/
def halved (bgra : List UInt8) (matrix : ColorMatrix) (pixelCount i : ℕ) : Yuv :=
  if i < pixelCount / 8 * 8 then reference bgra matrix (i / 8 * 8 + i % 8 % 4)
  else reference bgra matrix i

/-- A loop over single pixels. -/
theorem fills_pixels (convert : BgraSample → ColorMatrix → Yuv) {start count : ℕ}
    (hfits : start + count ≤ width * height) :
    Fills (Shaped width height) pixel
      (fun frame => (List.range' start count).foldl
        (fun frame i => frame.store i 1 fun _ => convert (.fromBgraSlice bgra i) matrix) frame)
      start (start + count) fun i => convert (.fromBgraSlice bgra i) matrix := by
  have hloop : Fills (Shaped width height) pixel
      (fun frame => (List.range' start count).foldl
        (fun frame i => frame.store i 1 fun _ => convert (.fromBgraSlice bgra i) matrix) frame)
      (0 + 1 * start) (0 + 1 * (start + count))
      fun i => convert (.fromBgraSlice bgra i) matrix := by
    refine Fills.range' start count fun g _ hg => ?_
    have hstore := fills_store g 1 (show g + 1 ≤ width * height by omega)
      fun _ => convert (.fromBgraSlice bgra g) matrix
    rw [show 0 + 1 * g = g by omega, show 0 + 1 * (g + 1) = g + 1 by omega]
    refine hstore.congr fun i hle hlt => ?_
    rw [show i = g by omega]
  rwa [Nat.zero_add, Nat.one_mul, Nat.zero_add, Nat.one_mul] at hloop

/-- A loop over groups of eight pixels, then the last pixels. -/
theorem fills_groups (bgra : List UInt8) (group : ℕ → ℕ → Yuv) (val : ℕ → Yuv)
    (hmatrix : matrix.isLimitedRange = false)
    (hgroup : ∀ g < width * height / 8, ∀ j < 8, group g j = val (g * 8 + j))
    (hrest : ∀ i, width * height / 8 * 8 ≤ i → i < width * height →
      val i = reference bgra matrix i) :
    Fills (Shaped width height) pixel
      (fun frame => convertRemainder bgra matrix (width * height / 8 * 8) (width * height % 8)
        ((List.range (width * height / 8)).foldl
          (fun frame i => frame.store (i * 8) 8 (group i)) frame))
      0 (width * height) val := by
  have hgroups : Fills (Shaped width height) pixel
      (fun frame => (List.range (width * height / 8)).foldl
        (fun frame i => frame.store (i * 8) 8 (group i)) frame)
      0 (0 + 8 * (width * height / 8)) val := by
    refine Fills.range _ fun g hg => ?_
    have hstore := fills_store (g * 8) 8 (show g * 8 + 8 ≤ width * height by omega) (group g)
    rw [show 0 + 8 * g = g * 8 by omega, show 0 + 8 * (g + 1) = g * 8 + 8 by omega]
    refine hstore.congr fun i hle hlt => ?_
    rw [hgroup g hg (i - g * 8) (by omega), show g * 8 + (i - g * 8) = i by omega]
  rw [show 0 + 8 * (width * height / 8) = width * height / 8 * 8 by omega] at hgroups
  have hpixels : Fills (Shaped width height) pixel
      (convertRemainder bgra matrix (width * height / 8 * 8) (width * height % 8))
      (width * height / 8 * 8) (width * height / 8 * 8 + width * height % 8) val := by
    have hloop : Fills (Shaped width height) pixel
        (convertRemainder bgra matrix (width * height / 8 * 8) (width * height % 8))
        (width * height / 8 * 8) (width * height / 8 * 8 + width * height % 8)
        fun i => convertFullRange (.fromBgraSlice bgra i) matrix :=
      fills_pixels convertFullRange (by omega)
    refine hloop.congr fun i hle hlt => ?_
    rw [hrest i hle (by omega)]
    exact convertFullRange_eq hmatrix _
  rw [show width * height / 8 * 8 + width * height % 8 = width * height by omega] at hpixels
  exact hgroups.trans hpixels (by omega) (by omega)

/-- **The reference** converts every pixel. -/
theorem fills_scalar (bgra : List UInt8) (matrix : ColorMatrix) :
    Fills (Shaped width height) pixel (fun frame => bgraToYuv444Scalar bgra frame matrix) 0
      (width * height) (reference bgra matrix) := by
  have hloop : Fills (Shaped width height) pixel _ 0 (0 + width * height) (reference bgra matrix) :=
    fills_pixels convertBgraSampleToYuv (by omega)
  rw [Nat.zero_add] at hloop
  refine hloop.of_eq fun frame h => ?_
  rw [bgraToYuv444Scalar, h.pixelCount, List.range_eq_range']

/-- **NEON** writes the same. -/
theorem fills_neon (bgra : List UInt8) (hmatrix : matrix.isLimitedRange = false) :
    Fills (Shaped width height) pixel (fun frame => bgraToYuv444Neon bgra frame matrix) 0
      (width * height) (reference bgra matrix) := by
  have hgroups : Fills (Shaped width height) pixel _ 0 _ _ :=
    fills_groups bgra (fun g => Neon.convertGroup bgra (g * 8 * 4) matrix) (reference bgra matrix)
      hmatrix (fun g _ j hj => Neon.convertGroup_eq bgra g hmatrix hj) fun _ _ _ => rfl
  refine hgroups.of_eq fun frame h => ?_
  rw [bgraToYuv444Neon, h.pixelCount]

/-- **AVX2** repeats the first half of every full group. -/
theorem fills_avx2 (bgra : List UInt8) (hmatrix : matrix.isLimitedRange = false) :
    Fills (Shaped width height) pixel (fun frame => bgraToYuv444Avx2 bgra frame matrix) 0
      (width * height) (halved bgra matrix (width * height)) := by
  have hgroups : Fills (Shaped width height) pixel _ 0 _ _ :=
    fills_groups bgra (fun g => Avx2.convertGroup (mm256Loadu bgra (g * 8 * 4)) matrix)
      (halved bgra matrix (width * height)) hmatrix ?_ ?_
  · refine hgroups.of_eq fun frame h => ?_
    rw [bgraToYuv444Avx2, h.pixelCount]
  · intro g hg j hj
    rw [Avx2.convertGroup_eq bgra g hmatrix hj, halved, if_pos (by omega),
      show (g * 8 + j) / 8 = g by omega, show (g * 8 + j) % 8 = j by omega]
    rfl
  · intro i hle _
    rw [halved, if_neg (by omega)]

/-- Two fillings of a whole frame agree exactly if they write the same. -/
theorem frames_eq_iff {f f' : Yuv444Frame → Yuv444Frame} {val val' : ℕ → Yuv}
    (hf : Fills (Shaped width height) pixel f 0 (width * height) val)
    (hf' : Fills (Shaped width height) pixel f' 0 (width * height) val') :
    f (new width height) = f' (new width height) ↔ ∀ i < width * height, val i = val' i := by
  have hshape := shaped_new width height
  have hread : ∀ i < width * height, (f (new width height)).pixel i = val i := by
    intro i hi
    rw [hf.read_eq _ hshape, if_pos ⟨Nat.zero_le i, hi⟩]
  have hread' : ∀ i < width * height, (f' (new width height)).pixel i = val' i := by
    intro i hi
    rw [hf'.read_eq _ hshape, if_pos ⟨Nat.zero_le i, hi⟩]
  constructor
  · intro heq i hi
    rw [← hread i hi, heq, hread' i hi]
  · intro hval
    refine (hf.keeps _ hshape).ext (hf'.keeps _ hshape) fun i hi => ?_
    rw [hread i hi, hval i hi, hread' i hi]

/-- In every full group of eight pixels, those four apart convert to the same colour. -/
def Repetitive (bgra : List UInt8) (pixelCount : ℕ) (matrix : ColorMatrix) : Prop :=
  ∀ g < pixelCount / 8, ∀ j < 4,
    convertBgraSampleToYuv (.fromBgraSlice bgra (g * 8 + j)) matrix =
      convertBgraSampleToYuv (.fromBgraSlice bgra (g * 8 + (j + 4))) matrix

/-- AVX2 writes the reference exactly for repetitive pictures. -/
theorem halved_eq_iff :
    (∀ i < width * height, halved bgra matrix (width * height) i = reference bgra matrix i) ↔
      Repetitive bgra (width * height) matrix := by
  constructor
  · intro h g hg j hj
    have hpixel := h (g * 8 + (j + 4)) (by omega)
    rw [halved, if_pos (by omega), show (g * 8 + (j + 4)) / 8 = g by omega,
      show (g * 8 + (j + 4)) % 8 % 4 = j by omega] at hpixel
    exact hpixel
  · intro h i hi
    rw [halved]
    split
    · rename_i hfull
      by_cases hhalf : i % 8 < 4
      · rw [show i / 8 * 8 + i % 8 % 4 = i by omega]
      · have hpixel := h (i / 8) (by omega) (i % 8 - 4) (by omega)
        rw [show i % 8 % 4 = i % 8 - 4 by omega]
        rw [show i / 8 * 8 + (i % 8 - 4 + 4) = i by omega] at hpixel
        exact hpixel
    · rfl

theorem avx2_eq_scalar_iff (hmatrix : matrix.isLimitedRange = false)
    (hbuffer : bgra.length = width * height * 4) :
    bgraToYuv444 .avx2 bgra width height matrix = bgraToYuv444 .none bgra width height matrix ↔
      Repetitive bgra (width * height) matrix := by
  have hscalar : Fills (Shaped width height) pixel _ 0 _ _ := fills_scalar bgra matrix
  have hframes := frames_eq_iff (fills_avx2 bgra hmatrix) hscalar
  simp only [bgraToYuv444, if_pos hbuffer, hmatrix, if_neg Bool.false_ne_true, Option.some.injEq]
  rw [hframes, halved_eq_iff]

theorem neon_eq_scalar (hmatrix : matrix.isLimitedRange = false) :
    bgraToYuv444 .neon bgra width height matrix = bgraToYuv444 .none bgra width height matrix := by
  have hscalar : Fills (Shaped width height) pixel _ 0 _ _ := fills_scalar bgra matrix
  have hframes := (frames_eq_iff (fills_neon bgra hmatrix) hscalar).mpr fun _ _ => rfl
  simp only [bgraToYuv444, hmatrix, if_neg Bool.false_ne_true, hframes]

/-- **The vector code agrees with the reference exactly on repetitive pictures**, by the fault of
AVX2 alone. -/
theorem simd_eq_scalar_iff (hmatrix : matrix.isLimitedRange = false)
    (hbuffer : bgra.length = width * height * 4) :
    bgraToYuv444 .avx2 bgra width height matrix = bgraToYuv444 .none bgra width height matrix ∧
      bgraToYuv444 .neon bgra width height matrix = bgraToYuv444 .none bgra width height matrix ↔
      Repetitive bgra (width * height) matrix := by
  rw [avx2_eq_scalar_iff hmatrix hbuffer]
  exact and_iff_left (neon_eq_scalar hmatrix)

/-- One row of two colours, each for two pixels in turn. -/
def stripes : List UInt8 := (List.replicate 4 [0, 0, 255, 255, 0, 0, 255, 255,
  255, 128, 0, 255, 255, 128, 0, 255]).flatten

theorem stripes_agree : Repetitive stripes (16 * 1) .bt709 ∧
    bgraToYuv444 .avx2 stripes 16 1 .bt709 = bgraToYuv444 .none stripes 16 1 .bt709 := by
  have h : Repetitive stripes (16 * 1) .bt709 := by
    rw [Repetitive]
    decide +kernel
  exact ⟨h, ((simd_eq_scalar_iff (by decide) (by decide)).mpr h).1⟩

/-- Seven black pixels and a white one. -/
def onePixel : List UInt8 := List.replicate 28 0 ++ [255, 255, 255, 255]

/-- The white pixel is not seen. -/
theorem onePixel_lost : onePixel.length = 8 * 1 * 4 ∧
    bgraToYuv444 .avx2 onePixel 8 1 .bt601 ≠ bgraToYuv444 .none onePixel 8 1 .bt601 := by
  refine ⟨by decide, ?_⟩
  rw [Ne, avx2_eq_scalar_iff (by decide) (by decide), Repetitive]
  decide +kernel

end Loops

end Graphics

end Cheirizo
