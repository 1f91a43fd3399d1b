import Cheirizo.Clock
import Mathlib.Data.Finset.Basic
import Mathlib.Logic.Function.Basic

/-!
# Keys

`channels/input/mapper.rs` and `channels/input/keyboard.rs`. Scancodes are translated to evdev
keycodes, and the handler keeps the keys that are down, the modifiers and the locks. Its state is
changed before anything is injected, so it is what the client did and not what the compositor saw.

## Main definitions

* `ScancodeMapper.translateScancode` — the tables, with the overrides of a layout
* `KeyboardHandler.handleKeyDown`, `KeyboardHandler.handleKeyUp`, `KeyboardHandler.synchronizeLocks`

## Main results

* `handleKeyDown_cases`, `handleKeyUp_cases` — what a key event does to the handler
* `synchronizeLocks_again` — a second synchronization to the same state toggles nothing
-/

namespace Cheirizo

namespace Input

/-! ### Keycodes -/

/-- The keycodes of evdev that the source has names for. -/
def KEY_LEFTCTRL : ℕ := 29
def KEY_LEFTSHIFT : ℕ := 42
def KEY_RIGHTSHIFT : ℕ := 54
def KEY_LEFTALT : ℕ := 56
def KEY_CAPSLOCK : ℕ := 58
def KEY_NUMLOCK : ℕ := 69
def KEY_SCROLLLOCK : ℕ := 70
def KEY_RIGHTCTRL : ℕ := 97
def KEY_RIGHTALT : ℕ := 100
def KEY_LEFTMETA : ℕ := 125
def KEY_RIGHTMETA : ℕ := 126

/-- The keys without a prefix, by scancode. -/
def primaryMap : List (UInt16 × ℕ) :=
  [(0x01, 1), (0x02, 2), (0x03, 3), (0x04, 4), (0x05, 5), (0x06, 6), (0x07, 7), (0x08, 8),
    (0x09, 9), (0x0A, 10), (0x0B, 11), (0x0C, 12), (0x0D, 13), (0x0E, 14), (0x0F, 15),
    (0x10, 16), (0x11, 17), (0x12, 18), (0x13, 19), (0x14, 20), (0x15, 21), (0x16, 22),
    (0x17, 23), (0x18, 24), (0x19, 25), (0x1A, 26), (0x1B, 27), (0x1C, 28), (0x1D, 29),
    (0x1E, 30), (0x1F, 31), (0x20, 32), (0x21, 33), (0x22, 34), (0x23, 35), (0x24, 36),
    (0x25, 37), (0x26, 38), (0x27, 39), (0x28, 40), (0x29, 41), (0x2A, 42), (0x2B, 43),
    (0x2C, 44), (0x2D, 45), (0x2E, 46), (0x2F, 47), (0x30, 48), (0x31, 49), (0x32, 50),
    (0x33, 51), (0x34, 52), (0x35, 53), (0x36, 54), (0x37, 55), (0x38, 56), (0x39, 57),
    (0x3A, 58), (0x3B, 59), (0x3C, 60), (0x3D, 61), (0x3E, 62), (0x3F, 63), (0x40, 64),
    (0x41, 65), (0x42, 66), (0x43, 67), (0x44, 68), (0x45, 69), (0x46, 70), (0x47, 71),
    (0x48, 72), (0x49, 73), (0x4A, 74), (0x4B, 75), (0x4C, 76), (0x4D, 77), (0x4E, 78),
    (0x4F, 79), (0x50, 80), (0x51, 81), (0x52, 82), (0x53, 83), (0x54, 99), (0x56, 86),
    (0x57, 87), (0x58, 88), (0x59, 117), (0x5A, 183), (0x5B, 184), (0x5C, 185), (0x5D, 186),
    (0x5E, 187), (0x5F, 188), (0x60, 189), (0x61, 190), (0x62, 191), (0x63, 192), (0x64, 193),
    (0x65, 194), (0x70, 90), (0x71, 94), (0x72, 92), (0x73, 89), (0x74, 124), (0x75, 122),
    (0x76, 123), (0x77, 125), (0x78, 126), (0x79, 127), (0x7A, 128), (0x7B, 129), (0x7C, 130),
    (0x7D, 131), (0x7E, 132), (0x7F, 133)]

/-- The keys with the E0 prefix. -/
def extendedMap : List (UInt16 × ℕ) :=
  [(0xE01C, 96), (0xE01D, 97), (0xE020, 113), (0xE021, 140), (0xE022, 164), (0xE024, 166),
    (0xE02E, 114), (0xE030, 115), (0xE032, 172), (0xE035, 98), (0xE037, 210), (0xE038, 100),
    (0xE045, 119), (0xE047, 102), (0xE048, 103), (0xE049, 104), (0xE04B, 105), (0xE04D, 106),
    (0xE04F, 107), (0xE050, 108), (0xE051, 109), (0xE052, 110), (0xE053, 111), (0xE05B, 125),
    (0xE05C, 126), (0xE05D, 139), (0xE05E, 116), (0xE05F, 142), (0xE063, 143), (0xE065, 217),
    (0xE066, 156), (0xE067, 173), (0xE068, 128), (0xE069, 159), (0xE06A, 158), (0xE06B, 157),
    (0xE06C, 155), (0xE06D, 226), (0xE010, 165), (0xE019, 163), (0xE02C, 161)]

/-- The keys with the E1 prefix. -/
def e1Map : List (UInt32 × ℕ) := [(0xE11D45, 119), (0xE11D46, 411)]

/-- Scancodes that a layout has elsewhere. -/
def layoutOverrides : String → List (UInt16 × ℕ)
  | "de" | "ch" => [(0x15, 44), (0x2C, 21)]
  | "fr" | "be" => [(0x10, 30), (0x1E, 16), (0x11, 44), (0x2C, 17), (0x27, 50), (0x32, 51)]
  | "uk" | "gb" => [(0x2B, 86)]
  | "dvorak" =>
    [(0x10, 40), (0x11, 51), (0x12, 52), (0x13, 25), (0x14, 21), (0x15, 33), (0x16, 34),
      (0x17, 46), (0x18, 19), (0x19, 38), (0x1E, 30), (0x1F, 24), (0x20, 18), (0x21, 22),
      (0x22, 23), (0x23, 32), (0x24, 35), (0x25, 20), (0x26, 49), (0x27, 31), (0x2C, 39),
      (0x2D, 16), (0x2E, 36), (0x2F, 37), (0x30, 45), (0x31, 48), (0x32, 50), (0x33, 17),
      (0x34, 47), (0x35, 44)]
  | "colemak" =>
    [(0x12, 33), (0x13, 25), (0x14, 34), (0x15, 36), (0x16, 38), (0x17, 22), (0x18, 21),
      (0x19, 39), (0x1F, 19), (0x20, 31), (0x21, 20), (0x22, 32), (0x24, 49), (0x25, 18),
      (0x26, 23), (0x27, 24), (0x31, 37)]
  | _ => []

/-- Why an event is not taken. -/
inductive InputError where
  | unknownScancode (scancode : UInt16)
  | invalidCoordinate
  deriving DecidableEq, Repr

namespace ScancodeMapper

/-- The keycode of a scancode. With a prefix the layout does not matter. -/
def translateScancode (layout : String) (scancode : UInt32) (extended e1Prefix : Bool) :
    Except InputError ℕ :=
  if e1Prefix then
    match e1Map.lookup scancode with
    | some keycode => .ok keycode
    | none => .error (.unknownScancode scancode.toUInt16)
  else if extended then
    let extendedScan := 0xE000 ||| (scancode.toUInt16 &&& 0xFF)
    match (extendedMap.lookup extendedScan).or (primaryMap.lookup scancode.toUInt16) with
    | some keycode => .ok keycode
    | none => .error (.unknownScancode extendedScan)
  else
    match ((layoutOverrides layout).lookup scancode.toUInt16).or
        (primaryMap.lookup scancode.toUInt16) with
    | some keycode => .ok keycode
    | none => .error (.unknownScancode scancode.toUInt16)

end ScancodeMapper

/-! ### The handler -/

/-- The modifiers as they stand at an event. -/
structure KeyModifiers where
  shift : Bool
  ctrl : Bool
  alt : Bool
  metaKey : Bool
  capsLock : Bool
  numLock : Bool
  scrollLock : Bool
  deriving DecidableEq, Repr

/-- What the handler makes of a scancode. -/
inductive KeyboardEvent where
  | ignored (keycode : ℕ)
  | keyDown (keycode : ℕ) (scancode : UInt16) (modifiers : KeyModifiers) (timestamp : Instant)
  | keyUp (keycode : ℕ) (scancode : UInt16) (modifiers : KeyModifiers) (timestamp : Instant)
  | keyRepeat (keycode : ℕ) (scancode : UInt16) (modifiers : KeyModifiers) (timestamp : Instant)
  deriving DecidableEq, Repr

/-- Which keys are down, and since when. -/
structure KeyboardHandler where
  layout : String
  pressedKeys : Finset ℕ
  modifiers : KeyModifiers
  lastKeyTimes : ℕ → Option Instant
  repeatingKeys : Finset ℕ
  repeatDelayMs : ℕ
  repeatRateMs : ℕ

namespace KeyboardHandler

/-- Nothing is pressed, and no lock is on. -/
def new (layout : String) : KeyboardHandler where
  layout
  pressedKeys := ∅
  modifiers := ⟨false, false, false, false, false, false, false⟩
  lastKeyTimes := fun _ => none
  repeatingKeys := ∅
  repeatDelayMs := 500
  repeatRateMs := 33

/-- Keep the modifiers up to date with a key that went down or up. -/
def updateModifiers (k : KeyboardHandler) (keycode : ℕ) (pressed : Bool) : KeyModifiers :=
  let m := k.modifiers
  -- a modifier stays on while either of its keys is down
  let held (left right : ℕ) : Bool := pressed || left ∈ k.pressedKeys || right ∈ k.pressedKeys
  if keycode = KEY_LEFTSHIFT ∨ keycode = KEY_RIGHTSHIFT then
    { m with shift := held KEY_LEFTSHIFT KEY_RIGHTSHIFT }
  else if keycode = KEY_LEFTCTRL ∨ keycode = KEY_RIGHTCTRL then
    { m with ctrl := held KEY_LEFTCTRL KEY_RIGHTCTRL }
  else if keycode = KEY_LEFTALT ∨ keycode = KEY_RIGHTALT then
    { m with alt := held KEY_LEFTALT KEY_RIGHTALT }
  else if keycode = KEY_LEFTMETA ∨ keycode = KEY_RIGHTMETA then
    { m with metaKey := held KEY_LEFTMETA KEY_RIGHTMETA }
  else if keycode = KEY_CAPSLOCK then { m with capsLock := m.capsLock ^^ pressed }
  else if keycode = KEY_NUMLOCK then { m with numLock := m.numLock ^^ pressed }
  else if keycode = KEY_SCROLLLOCK then { m with scrollLock := m.scrollLock ^^ pressed }
  else m

/-- Milliseconds since the last accepted event of a key. -/
def elapsedMs (k : KeyboardHandler) (keycode : ℕ) (now : Instant) : ℕ :=
  (now - (k.lastKeyTimes keycode).getD now) / 1000000

/-- A repeat that comes too soon. -/
def suppressesRepeat (k : KeyboardHandler) (keycode : ℕ) (now : Instant) : Bool :=
  keycode ∈ k.pressedKeys &&
    (if keycode ∈ k.repeatingKeys then k.elapsedMs keycode now < k.repeatRateMs
      else k.elapsedMs keycode now < k.repeatDelayMs)

/-- A key that is down already is a repeat, and one that comes too soon is ignored. -/
def handleKeyDown (k : KeyboardHandler) (scancode : UInt16) (extended e1Prefix : Bool)
    (now : Instant) : Except InputError (KeyboardEvent × KeyboardHandler) := do
  let keycode ← ScancodeMapper.translateScancode k.layout scancode.toUInt32 extended e1Prefix
  if k.suppressesRepeat keycode now then return (.ignored keycode, k)
  let isRepeat : Bool := keycode ∈ k.pressedKeys
  let k := { k with
    repeatingKeys := if isRepeat then insert keycode k.repeatingKeys else k.repeatingKeys
    pressedKeys := insert keycode k.pressedKeys
    lastKeyTimes := Function.update k.lastKeyTimes keycode (some now) }
  let k := { k with modifiers := k.updateModifiers keycode true }
  return (if isRepeat then .keyRepeat keycode scancode k.modifiers now
    else .keyDown keycode scancode k.modifiers now, k)

/-- A release of a key that is not down is ignored. -/
def handleKeyUp (k : KeyboardHandler) (scancode : UInt16) (extended e1Prefix : Bool)
    (now : Instant) : Except InputError (KeyboardEvent × KeyboardHandler) := do
  let keycode ← ScancodeMapper.translateScancode k.layout scancode.toUInt32 extended e1Prefix
  if keycode ∉ k.pressedKeys then return (.ignored keycode, k)
  let k := { k with
    pressedKeys := k.pressedKeys.erase keycode
    lastKeyTimes := Function.update k.lastKeyTimes keycode none
    repeatingKeys := k.repeatingKeys.erase keycode }
  let k := { k with modifiers := k.updateModifiers keycode false }
  return (.keyUp keycode scancode k.modifiers now, k)

/-- Take over the client's locks: the keys to toggle. -/
def synchronizeLocks (k : KeyboardHandler) (capsLock numLock scrollLock : Bool) :
    List ℕ × KeyboardHandler :=
  let toggle (current desired : Bool) (keycode : ℕ) : List ℕ :=
    if current ≠ desired then [keycode] else []
  (toggle k.modifiers.capsLock capsLock KEY_CAPSLOCK ++
      toggle k.modifiers.numLock numLock KEY_NUMLOCK ++
      toggle k.modifiers.scrollLock scrollLock KEY_SCROLLLOCK,
    { k with modifiers := { k.modifiers with capsLock, numLock, scrollLock } })

/-! ### What an event changes -/

/-- The handler after a key went down or repeated. -/
def afterPress (k : KeyboardHandler) (keycode : ℕ) (now : Instant) : KeyboardHandler :=
  let k := { k with
    repeatingKeys := if keycode ∈ k.pressedKeys then insert keycode k.repeatingKeys
      else k.repeatingKeys
    pressedKeys := insert keycode k.pressedKeys
    lastKeyTimes := Function.update k.lastKeyTimes keycode (some now) }
  { k with modifiers := k.updateModifiers keycode true }

/-- The handler after a key went up. -/
def afterRelease (k : KeyboardHandler) (keycode : ℕ) : KeyboardHandler :=
  let k := { k with
    pressedKeys := k.pressedKeys.erase keycode
    lastKeyTimes := Function.update k.lastKeyTimes keycode none
    repeatingKeys := k.repeatingKeys.erase keycode }
  { k with modifiers := k.updateModifiers keycode false }

variable {k next : KeyboardHandler} {keycode : ℕ} {scancode : UInt16} {extended e1Prefix : Bool}
  {now : Instant} {event : KeyboardEvent}

theorem mem_afterPress {c : ℕ} :
    c ∈ (k.afterPress keycode now).pressedKeys ↔ c = keycode ∨ c ∈ k.pressedKeys :=
  Finset.mem_insert

theorem mem_afterRelease {c : ℕ} :
    c ∈ (k.afterRelease keycode).pressedKeys ↔ c ≠ keycode ∧ c ∈ k.pressedKeys :=
  Finset.mem_erase

/-- A key that goes down is ignored as a repeat that comes too soon, repeats, or goes down. -/
theorem handleKeyDown_ok (now : Instant)
    (hcode : ScancodeMapper.translateScancode k.layout scancode.toUInt32 extended e1Prefix =
      .ok keycode) :
    (k.suppressesRepeat keycode now = true ∧
        k.handleKeyDown scancode extended e1Prefix now = .ok (.ignored keycode, k)) ∨
      (k.suppressesRepeat keycode now = false ∧ keycode ∈ k.pressedKeys ∧
        k.handleKeyDown scancode extended e1Prefix now =
          .ok (.keyRepeat keycode scancode (k.afterPress keycode now).modifiers now,
            k.afterPress keycode now)) ∨
      (keycode ∉ k.pressedKeys ∧ k.handleKeyDown scancode extended e1Prefix now =
        .ok (.keyDown keycode scancode (k.afterPress keycode now).modifiers now,
          k.afterPress keycode now)) := by
  rw [handleKeyDown]
  rw [hcode]
  simp only [bind, Except.bind, pure, Except.pure]
  split
  · rename_i hsoon
    exact Or.inl ⟨hsoon, rfl⟩
  · rename_i hlate
    by_cases hdown : keycode ∈ k.pressedKeys
    · refine Or.inr (Or.inl ⟨Bool.eq_false_of_not_eq_true hlate, hdown, ?_⟩)
      simp [afterPress, hdown]
    · refine Or.inr (Or.inr ⟨hdown, ?_⟩)
      simp [afterPress, hdown]

theorem handleKeyDown_error {e : InputError}
    (hcode : ScancodeMapper.translateScancode k.layout scancode.toUInt32 extended e1Prefix =
      .error e) : k.handleKeyDown scancode extended e1Prefix now = .error e := by
  rw [handleKeyDown]
  rw [hcode]
  rfl

/-- A key that goes down is ignored, or is among those that are down. -/
theorem handleKeyDown_cases
    (h : k.handleKeyDown scancode extended e1Prefix now = .ok (event, next)) :
    ∃ keycode, (event = .ignored keycode ∧ next = k) ∨
      (next = k.afterPress keycode now ∧
        ((keycode ∈ k.pressedKeys ∧ event = .keyRepeat keycode scancode next.modifiers now) ∨
          (keycode ∉ k.pressedKeys ∧ event = .keyDown keycode scancode next.modifiers now))) := by
  cases hcode : ScancodeMapper.translateScancode k.layout scancode.toUInt32 extended e1Prefix with
  | error e =>
    rw [handleKeyDown_error hcode] at h
    cases h
  | ok keycode =>
    refine ⟨keycode, ?_⟩
    obtain ⟨-, hresult⟩ | ⟨-, hdown, hresult⟩ | ⟨hup, hresult⟩ := handleKeyDown_ok now hcode
    · rw [hresult] at h
      cases h
      exact Or.inl ⟨rfl, rfl⟩
    · rw [hresult] at h
      cases h
      exact Or.inr ⟨rfl, Or.inl ⟨hdown, rfl⟩⟩
    · rw [hresult] at h
      cases h
      exact Or.inr ⟨rfl, Or.inr ⟨hup, rfl⟩⟩

/-- A key that goes up is ignored if it is not down, and is not down after it. -/
theorem handleKeyUp_ok (now : Instant)
    (hcode : ScancodeMapper.translateScancode k.layout scancode.toUInt32 extended e1Prefix =
      .ok keycode) :
    (keycode ∉ k.pressedKeys ∧
        k.handleKeyUp scancode extended e1Prefix now = .ok (.ignored keycode, k)) ∨
      (keycode ∈ k.pressedKeys ∧ k.handleKeyUp scancode extended e1Prefix now =
        .ok (.keyUp keycode scancode (k.afterRelease keycode).modifiers now,
          k.afterRelease keycode)) := by
  rw [handleKeyUp]
  rw [hcode]
  simp only [bind, Except.bind, pure, Except.pure]
  split
  · rename_i hnot
    exact Or.inl ⟨hnot, rfl⟩
  · rename_i hdown
    exact Or.inr ⟨not_not.mp hdown, rfl⟩

theorem handleKeyUp_error {e : InputError}
    (hcode : ScancodeMapper.translateScancode k.layout scancode.toUInt32 extended e1Prefix =
      .error e) : k.handleKeyUp scancode extended e1Prefix now = .error e := by
  rw [handleKeyUp]
  rw [hcode]
  rfl

theorem handleKeyUp_cases
    (h : k.handleKeyUp scancode extended e1Prefix now = .ok (event, next)) :
    ∃ keycode, (event = .ignored keycode ∧ next = k) ∨
      (next = k.afterRelease keycode ∧ keycode ∈ k.pressedKeys ∧
        event = .keyUp keycode scancode next.modifiers now) := by
  cases hcode : ScancodeMapper.translateScancode k.layout scancode.toUInt32 extended e1Prefix with
  | error e =>
    rw [handleKeyUp_error hcode] at h
    cases h
  | ok keycode =>
    refine ⟨keycode, ?_⟩
    obtain ⟨-, hresult⟩ | ⟨hdown, hresult⟩ := handleKeyUp_ok now hcode
    · rw [hresult] at h
      cases h
      exact Or.inl ⟨rfl, rfl⟩
    · rw [hresult] at h
      cases h
      exact Or.inr ⟨rfl, hdown, rfl⟩

/-- A second synchronization to the same locks toggles nothing. -/
theorem synchronizeLocks_again (k : KeyboardHandler) (capsLock numLock scrollLock : Bool) :
    ((k.synchronizeLocks capsLock numLock scrollLock).2.synchronizeLocks capsLock numLock
      scrollLock).1 = [] := by
  simp [synchronizeLocks]

end KeyboardHandler

end Input

end Cheirizo
