import Mathlib.Algebra.Group.Int.Defs
import Mathlib.Algebra.Group.Nat.Defs
import Mathlib.Data.Int.Order.Basic
import Cheirizo.Lib.Hull

/-!
# The desktop and its monitors

`rdp/channels/input/coordinates.rs`. The pointer positions of the client are mapped to the monitors
of the desktop. The desktop is the smallest box around all monitors; the stream is as wide and as
high as the parts of it that belong to the monitors reach.

Positions are signed and sizes are not, so they are added in 64 bits and cast back. Each monitor is
checked on its own before; that is enough for the box around all of them, also where one begins at
the lowest position there is.

## Main definitions

* `MonitorInfo`, `validateMonitors`
* `CoordinateSystem`, `calculateCoordinateSystem`
* `CoordinateTransformer.new`

## Main results

* `desktop_exact` — the desktop is the smallest box around the monitors
-/

namespace Cheirizo

namespace Input

/-! ### Numbers -/

/-- A 64-bit floating-point number, by its bits. -/
structure F64 where
  bits : UInt64
  deriving DecidableEq, Repr

namespace F64

/-- The bits of the exponent. -/
def exponentMask : UInt64 := 0x7FF0000000000000

/-- Infinities and NaNs have all bits of the exponent set. -/
def isFinite (x : F64) : Bool := x.bits &&& exponentMask ≠ exponentMask

/-- What is beyond infinity is none of the numbers. -/
def isNan (x : F64) : Bool := exponentMask < x.bits &&& 0x7FFFFFFFFFFFFFFF

/-- `x <= 0.0`: nothing is said of what is not a number, and zero has two signs. -/
def leZero (x : F64) : Bool := !x.isNan && (x.bits = 0 || 0x8000000000000000 ≤ x.bits)

/-- 0.0. -/
def zero : F64 := ⟨0⟩

/-- 1.0. -/
def one : F64 := ⟨0x3FF0000000000000⟩

/-- The usual resolution, 96.0. -/
def systemDpi : F64 := ⟨0x4058000000000000⟩

end F64

/-- `n as i32` -/
def asI32 (n : ℤ) : Int32 := .ofInt n

/-- `n as u32` -/
def asU32 (n : ℤ) : UInt32 := .ofNat (n % 2 ^ 32).toNat

/-! ### Monitors -/

/-- A monitor: where it is on the desktop and where in the stream, and how it is scaled. -/
structure MonitorInfo where
  id : UInt32
  name : String
  x : Int32
  y : Int32
  width : UInt32
  height : UInt32
  dpi : F64
  scaleFactor : F64
  streamX : UInt32
  streamY : UInt32
  streamWidth : UInt32
  streamHeight : UInt32
  isPrimary : Bool
  deriving DecidableEq, Repr

/-- The errors of `InputError` that are about monitors and streams. -/
inductive MonitorError where
  | invalidMonitorConfig (message : String)
  | monitorNotFound (id : UInt32)
  deriving DecidableEq, Repr

namespace MonitorInfo

variable (m : MonitorInfo)

/-- Where the monitor ends, in 64 bits. -/
def endX : ℤ := m.x.toInt + m.width.toNat

/-- Below its last row. The sum is not bounded. -/
def endY : ℤ := m.y.toInt + m.height.toNat

/-- Behind its last column in the stream. -/
def streamEndX : UInt32 := m.streamX + m.streamWidth

/-- Below its last row in the stream. -/
def streamEndY : UInt32 := m.streamY + m.streamHeight

/-- The box of the monitor. -/
def box : Box ℤ := ⟨m.x.toInt, m.y.toInt, m.endX, m.endY⟩

/-- The checks of one monitor, in their order. -/
def validate : Except MonitorError Unit :=
  if m.width = 0 ∨ m.height = 0 ∨ m.streamWidth = 0 ∨ m.streamHeight = 0 then
    .error (.invalidMonitorConfig
      ("Monitor '" ++ m.name ++ "' has zero-sized desktop or stream dimensions"))
  else if !m.dpi.isFinite || m.dpi.leZero || !m.scaleFactor.isFinite || m.scaleFactor.leZero then
    .error (.invalidMonitorConfig ("Monitor '" ++ m.name ++ "' has invalid DPI or scale factor"))
  else if 2 ^ 31 - 1 < m.endX ∨ 2 ^ 31 - 1 < m.endY ∨
      2 ^ 32 ≤ m.streamX.toNat + m.streamWidth.toNat ∨
      2 ^ 32 ≤ m.streamY.toNat + m.streamHeight.toNat then
    .error (.invalidMonitorConfig ("Monitor '" ++ m.name ++ "' coordinate extent overflows"))
  else .ok ()

end MonitorInfo

/-- The first monitor that fails gives the error. -/
def validateMonitors (monitors : List MonitorInfo) : Except MonitorError Unit :=
  if monitors.isEmpty then .error (.invalidMonitorConfig "No monitors configured")
  else forM monitors MonitorInfo.validate

/-! ### The coordinate system -/

/-- The sides of the desktop while the monitors are gone through. -/
structure Bounds where
  minX : Int32
  minY : Int32
  maxX : Int32
  maxY : Int32
  deriving DecidableEq, Repr

namespace Bounds

/-- No monitor has been seen: the smallest is still the largest number. -/
def start : Bounds := ⟨Int32.maxValue, Int32.maxValue, Int32.minValue, Int32.minValue⟩

/-- The bounds around one more monitor. -/
def widen (b : Bounds) (m : MonitorInfo) : Bounds where
  minX := min b.minX m.x
  minY := min b.minY m.y
  maxX := max b.maxX (asI32 m.endX)
  maxY := max b.maxY (asI32 m.endY)

/-- The bounds as numbers without bounds. -/
def box (b : Bounds) : Box ℤ := ⟨b.minX.toInt, b.minY.toInt, b.maxX.toInt, b.maxY.toInt⟩

end Bounds

/-- The desktop as the client sees it, and as it is. -/
structure CoordinateSystem where
  rdpWidth : UInt32
  rdpHeight : UInt32
  virtualWidth : UInt32
  virtualHeight : UInt32
  virtualXOffset : Int32
  virtualYOffset : Int32
  streamWidth : UInt32
  streamHeight : UInt32
  rdpDpi : F64
  systemDpi : F64
  deriving DecidableEq, Repr

/-- The bounds of all monitors. -/
def desktopBounds (monitors : List MonitorInfo) : Bounds := monitors.foldl Bounds.widen .start

/-- The first primary monitor, or else the first; none only if there is no monitor, which is not
let through. -/
def primaryMonitor? (monitors : List MonitorInfo) : Option MonitorInfo :=
  (monitors.find? MonitorInfo.isPrimary).or monitors.head?

/-- Both are the smallest box around all monitors. -/
def calculateCoordinateSystem (monitors : List MonitorInfo) : CoordinateSystem :=
  let b := desktopBounds monitors
  let virtualWidth := asU32 (b.maxX.toInt - b.minX.toInt)
  let virtualHeight := asU32 (b.maxY.toInt - b.minY.toInt)
  { rdpWidth := virtualWidth
    rdpHeight := virtualHeight
    virtualWidth
    virtualHeight
    virtualXOffset := b.minX
    virtualYOffset := b.minY
    streamWidth := (monitors.map MonitorInfo.streamEndX).foldl max 0
    streamHeight := (monitors.map MonitorInfo.streamEndY).foldl max 0
    rdpDpi := ((primaryMonitor? monitors).map MonitorInfo.dpi).getD .zero
    systemDpi := .systemDpi }

/-- What is kept from event to event. Pixels that are not whole are carried over. -/
structure CoordinateTransformer where
  coordSystem : CoordinateSystem
  monitors : List MonitorInfo
  subPixelX : F64
  subPixelY : F64
  lastRdpX : UInt32
  lastRdpY : UInt32
  enableAcceleration : Bool
  accelerationFactor : F64
  enableSubPixel : Bool
  deriving DecidableEq, Repr

/-- The monitors are checked before anything is computed of them. -/
def CoordinateTransformer.new (monitors : List MonitorInfo) :
    Except MonitorError CoordinateTransformer := do
  validateMonitors monitors
  return {
    coordSystem := calculateCoordinateSystem monitors
    monitors
    subPixelX := .zero
    subPixelY := .zero
    lastRdpX := 0
    lastRdpY := 0
    enableAcceleration := true
    accelerationFactor := .one
    enableSubPixel := true }

/-! ### What the checks leave -/

/-- A monitor has pixels, and ends within the numbers it is given in. -/
structure MonitorInfo.Valid (m : MonitorInfo) : Prop where
  width : 0 < m.width.toNat
  height : 0 < m.height.toNat
  streamWidth : 0 < m.streamWidth.toNat
  streamHeight : 0 < m.streamHeight.toNat
  right : m.endX < 2 ^ 31
  bottom : m.endY < 2 ^ 31
  streamRight : m.streamX.toNat + m.streamWidth.toNat < 2 ^ 32
  streamBottom : m.streamY.toNat + m.streamHeight.toNat < 2 ^ 32

theorem toNat_pos {n : UInt32} (h : n ≠ 0) : 0 < n.toNat :=
  Nat.pos_of_ne_zero fun hzero => h (UInt32.toNat_inj.mp hzero)

theorem MonitorInfo.valid_of_validate {m : MonitorInfo} (h : m.validate = .ok ()) : m.Valid := by
  rw [validate] at h
  split at h
  · cases h
  · rename_i hsize
    split at h
    · cases h
    · split at h
      · cases h
      · rename_i hend
        simp only [not_or] at hsize hend
        obtain ⟨hwidth, hheight, hsw, hsh⟩ := hsize
        exact ⟨toNat_pos hwidth, toNat_pos hheight, toNat_pos hsw, toNat_pos hsh, by omega,
          by omega, by omega, by omega⟩

theorem validateMonitors_ok {monitors : List MonitorInfo} (h : validateMonitors monitors = .ok ()) :
    monitors ≠ [] ∧ ∀ m ∈ monitors, m.Valid := by
  rw [validateMonitors] at h
  split at h
  · cases h
  · rename_i hsome
    refine ⟨fun hnil => hsome (by rw [hnil]; rfl), ?_⟩
    clear hsome
    induction monitors with
    | nil => exact fun _ hm => absurd hm List.not_mem_nil
    | cons m monitors ih =>
      rw [List.forM_cons] at h
      cases hm : m.validate with
      | error e =>
        rw [hm] at h
        cases h
      | ok _ =>
        rw [hm] at h
        exact List.forall_mem_cons.mpr ⟨MonitorInfo.valid_of_validate hm, ih h⟩

namespace MonitorInfo.Valid

variable {m : MonitorInfo}

theorem toInt_asI32_endX (h : m.Valid) : (asI32 m.endX).toInt = m.endX := by
  have hlow := m.x.le_toInt
  have hwidth := h.width
  exact Int32.toInt_ofInt_of_le (by rw [endX]; omega) h.right

theorem toInt_asI32_endY (h : m.Valid) : (asI32 m.endY).toInt = m.endY := by
  have hlow := m.y.le_toInt
  have hheight := h.height
  exact Int32.toInt_ofInt_of_le (by rw [endY]; omega) h.bottom

theorem toNat_streamEndX (h : m.Valid) :
    m.streamEndX.toNat = m.streamX.toNat + m.streamWidth.toNat := by
  rw [MonitorInfo.streamEndX, UInt32.toNat_add, Nat.mod_eq_of_lt h.streamRight]

theorem toNat_streamEndY (h : m.Valid) :
    m.streamEndY.toNat = m.streamY.toNat + m.streamHeight.toNat := by
  rw [MonitorInfo.streamEndY, UInt32.toNat_add, Nat.mod_eq_of_lt h.streamBottom]

end MonitorInfo.Valid

/-! ### The smallest box -/

theorem toInt_min (a b : Int32) : (min a b).toInt = min a.toInt b.toInt := by
  show (if a ≤ b then a else b).toInt = _
  split
  · rename_i h
    exact (min_eq_left (Int32.le_iff_toInt_le.mp h)).symm
  · rename_i h
    rw [Int32.le_iff_toInt_le] at h
    exact (min_eq_right (le_of_not_ge h)).symm

theorem toInt_max (a b : Int32) : (max a b).toInt = max a.toInt b.toInt := by
  show (if a ≤ b then b else a).toInt = _
  split
  · rename_i h
    exact (max_eq_right (Int32.le_iff_toInt_le.mp h)).symm
  · rename_i h
    rw [Int32.le_iff_toInt_le] at h
    exact (max_eq_left (le_of_not_ge h)).symm

namespace Bounds

variable {b : Bounds} {m : MonitorInfo}

theorem box_widen (h : m.Valid) : (b.widen m).box = b.box ⊔ m.box := by
  rw [box, widen, toInt_min, toInt_min, toInt_max, toInt_max, h.toInt_asI32_endX,
    h.toInt_asI32_endY]
  rfl

theorem box_foldl {monitors : List MonitorInfo} (h : ∀ m ∈ monitors, m.Valid) (b : Bounds) :
    (monitors.foldl widen b).box = monitors.foldl (fun a m => a ⊔ m.box) b.box := by
  induction monitors generalizing b with
  | nil => rfl
  | cons m monitors ih =>
    rw [List.forall_mem_cons] at h
    rw [List.foldl_cons, List.foldl_cons, ih h.2, box_widen h.1]

/-- What the loop starts from is turned inside out. -/
theorem box_start_le (m : MonitorInfo) : start.box ≤ m.box := by
  have hx := m.x.toInt_lt
  have hy := m.y.toInt_lt
  have hx' := m.x.le_toInt
  have hy' := m.y.le_toInt
  refine Box.le_iff.mpr ⟨?_, ?_, ?_, ?_⟩
  · exact Int.le_of_lt_add_one hx
  · exact Int.le_of_lt_add_one hy
  · exact hx'.trans (Int.le_add_of_nonneg_right (Int.natCast_nonneg _))
  · exact hy'.trans (Int.le_add_of_nonneg_right (Int.natCast_nonneg _))

end Bounds

/-- The bounds of the desktop are the smallest box around the monitors. -/
theorem isLeast_desktopBounds {monitors : List MonitorInfo} (hne : monitors ≠ [])
    (h : ∀ m ∈ monitors, m.Valid) :
    IsLeast {b | ∀ m ∈ monitors, m.box ≤ b} (desktopBounds monitors).box := by
  rw [desktopBounds, Bounds.box_foldl h]
  exact isLeast_foldl_sup hne fun m _ => Bounds.box_start_le m

/-- The desktop has pixels. -/
theorem lt_desktopBounds {monitors : List MonitorInfo} (hne : monitors ≠ [])
    (h : ∀ m ∈ monitors, m.Valid) :
    (desktopBounds monitors).minX.toInt < (desktopBounds monitors).maxX.toInt ∧
      (desktopBounds monitors).minY.toInt < (desktopBounds monitors).maxY.toInt := by
  obtain ⟨m, hm⟩ := List.exists_mem_of_ne_nil monitors hne
  obtain ⟨hleft, htop, hright, hbottom⟩ := (isLeast_desktopBounds hne h).1 m hm
  have hwidth := (h m hm).width
  have hheight := (h m hm).height
  simp only [Bounds.box, MonitorInfo.box, MonitorInfo.endX, MonitorInfo.endY]
    at hleft htop hright hbottom
  omega

/-- A difference of two 32-bit numbers is cast without loss if it is not negative. -/
theorem toNat_asU32_sub {a b : Int32} (h : b.toInt ≤ a.toInt) :
    ((asU32 (a.toInt - b.toInt)).toNat : ℤ) = a.toInt - b.toInt := by
  have ha := a.toInt_lt
  have hb := b.le_toInt
  rw [asU32, UInt32.toNat_ofNat']
  omega

theorem toNat_foldl_max (l : List UInt32) (a : UInt32) :
    (l.foldl max a).toNat = l.foldl (fun n b => n ⊔ b.toNat) a.toNat := by
  have hmax : ∀ a b : UInt32, (max a b).toNat = a.toNat ⊔ b.toNat := by
    intro a b
    show (if a ≤ b then b else a).toNat = _
    split
    · rename_i h
      exact (max_eq_right (UInt32.le_iff_toNat_le.mp h)).symm
    · rename_i h
      rw [UInt32.le_iff_toNat_le] at h
      exact (max_eq_left (le_of_not_ge h)).symm
  induction l generalizing a with
  | nil => rfl
  | cons b l ih => rw [List.foldl_cons, List.foldl_cons, ih, hmax]

/-- The largest of some numbers that are not zero. -/
theorem isGreatest_foldl_max {monitors : List MonitorInfo} (hne : monitors ≠ [])
    {f : MonitorInfo → UInt32} {g : MonitorInfo → ℕ} (hexact : ∀ m ∈ monitors, (f m).toNat = g m)
    (hpos : ∀ m ∈ monitors, 0 < g m) :
    IsGreatest {n | ∃ m ∈ monitors, g m = n} ((monitors.map f).foldl max 0).toNat := by
  rw [toNat_foldl_max, List.foldl_map]
  have hbound := (foldl_sup_le_iff (f := fun m => (f m).toNat) (l := monitors) (b := 0)).mp le_rfl
  constructor
  · obtain hzero | ⟨m, hm, heq⟩ := foldl_sup_mem (f := fun m => (f m).toNat) monitors 0
    · obtain ⟨m, hm⟩ := List.exists_mem_of_ne_nil monitors hne
      have hle := hbound.2 m hm
      rw [hzero, hexact m hm] at hle
      exact absurd (hpos m hm) (Nat.not_lt_of_le hle)
    · exact ⟨m, hm, (hexact m hm).symm.trans heq⟩
  · rintro n ⟨m, hm, rfl⟩
    rw [← hexact m hm]
    exact hbound.2 m hm

/-- The casts and additions of `calculateCoordinateSystem` are exact: where monitors end, how large
the desktop is, and where the parts of the stream end. -/
structure Lossless (monitors : List MonitorInfo) : Prop where
  ends : ∀ m ∈ monitors, (asI32 m.endX).toInt = m.endX ∧ (asI32 m.endY).toInt = m.endY
  sizes : ((calculateCoordinateSystem monitors).virtualWidth.toNat : ℤ) =
      (desktopBounds monitors).maxX.toInt - (desktopBounds monitors).minX.toInt ∧
    ((calculateCoordinateSystem monitors).virtualHeight.toNat : ℤ) =
      (desktopBounds monitors).maxY.toInt - (desktopBounds monitors).minY.toInt
  streamEnds : ∀ m ∈ monitors, m.streamEndX.toNat = m.streamX.toNat + m.streamWidth.toNat ∧
    m.streamEndY.toNat = m.streamY.toNat + m.streamHeight.toNat

theorem lossless {monitors : List MonitorInfo} (hne : monitors ≠ [])
    (h : ∀ m ∈ monitors, m.Valid) : Lossless monitors where
  ends m hm := ⟨(h m hm).toInt_asI32_endX, (h m hm).toInt_asI32_endY⟩
  sizes := ⟨toNat_asU32_sub (lt_desktopBounds hne h).1.le,
    toNat_asU32_sub (lt_desktopBounds hne h).2.le⟩
  streamEnds m hm := ⟨(h m hm).toNat_streamEndX, (h m hm).toNat_streamEndY⟩

/-- The desktop of a coordinate system. -/
def CoordinateSystem.desktop (c : CoordinateSystem) : Box ℤ where
  left := c.virtualXOffset.toInt
  top := c.virtualYOffset.toInt
  right := c.virtualXOffset.toInt + c.virtualWidth.toNat
  bottom := c.virtualYOffset.toInt + c.virtualHeight.toNat

theorem desktop_eq {monitors : List MonitorInfo} (h : Lossless monitors) :
    (calculateCoordinateSystem monitors).desktop = (desktopBounds monitors).box := by
  have hright : ∀ {a b : ℤ} {n : ℕ}, (n : ℤ) = b - a → a + n = b := by omega
  exact Box.ext rfl rfl (hright h.sizes.1) (hright h.sizes.2)

/-- **The desktop is exact.** For monitors that are let through nothing is lost on the way to the
coordinate system, its desktop has pixels and is the smallest box around the monitors, and its
stream ends where the last of them do. -/
theorem desktop_exact {monitors : List MonitorInfo} (h : validateMonitors monitors = .ok ()) :
    let c := calculateCoordinateSystem monitors
    Lossless monitors ∧ 1 ≤ c.virtualWidth.toNat ∧ 1 ≤ c.virtualHeight.toNat ∧
      IsLeast {b | ∀ m ∈ monitors, m.box ≤ b} c.desktop ∧
      IsGreatest {n | ∃ m ∈ monitors, m.streamX.toNat + m.streamWidth.toNat = n}
        c.streamWidth.toNat ∧
      IsGreatest {n | ∃ m ∈ monitors, m.streamY.toNat + m.streamHeight.toNat = n}
        c.streamHeight.toNat := by
  obtain ⟨hne, hvalid⟩ := validateMonitors_ok h
  have hexact := lossless hne hvalid
  have hpixels := lt_desktopBounds hne hvalid
  refine ⟨hexact, ?_, ?_, ?_, ?_, ?_⟩
  · have hwidth := hexact.sizes.1
    omega
  · have hheight := hexact.sizes.2
    omega
  · rw [desktop_eq hexact]
    exact isLeast_desktopBounds hne hvalid
  · exact isGreatest_foldl_max hne (fun m hm => (hexact.streamEnds m hm).1)
      fun m hm => Nat.add_pos_right _ (hvalid m hm).streamWidth
  · exact isGreatest_foldl_max hne (fun m hm => (hexact.streamEnds m hm).2)
      fun m hm => Nat.add_pos_right _ (hvalid m hm).streamHeight

/-- A monitor at the lowest position, and one that ends at the highest. -/
def farMonitors : List MonitorInfo :=
  [⟨1, "left", -2147483648, 0, 1920, 1080, .systemDpi, .one, 0, 0, 1920, 1080, true⟩,
    ⟨2, "right", 2147481727, 0, 1920, 1080, .systemDpi, .one, 1920, 0, 1920, 1080, false⟩]

theorem widest_desktop :
    (calculateCoordinateSystem farMonitors).virtualWidth = 4294967295 ∧
      IsLeast {b | ∀ m ∈ farMonitors, m.box ≤ b}
        (calculateCoordinateSystem farMonitors).desktop :=
  ⟨by decide +kernel, (desktop_exact (by decide +kernel)).2.2.2.1⟩

end Input

end Cheirizo
