import Cheirizo.Input.Keyboard
import Cheirizo.Lib.Machine

/-!
# The locks of the keyboard

The handler keeps three flags, for Caps Lock, Num Lock and Scroll Lock. A synchronization sets them
to what the client has, and a press of the key toggles its flag; the compositor does the same. A key
that is held down does nothing more to the compositor's lock. The handler, however, takes the
repeats of a held key for presses, and toggles the flag with each of them that it lets through.

What the flags should be is read off a log of what the handler was told and what it answered.

## Main definitions

* `Lock` — the three locks
* `Lock.expected` — the state of a lock, by the log
* `LockRun.RepeatsLock` — the condition

## Main results

* `flag_updateModifiers` — what a key does to the flags
* `locks_tracked_iff` — the runs along which the flags are right
-/

namespace Cheirizo

namespace Input

/-! ### Locks -/

/-- The three locks. -/
inductive Lock where
  | capsLock
  | numLock
  | scrollLock
  deriving DecidableEq, Repr

namespace Lock

/-- The key that toggles the lock. -/
def keycode : Lock → ℕ
  | capsLock => KEY_CAPSLOCK
  | numLock => KEY_NUMLOCK
  | scrollLock => KEY_SCROLLLOCK

/-- The lock is on, as the handler has it. -/
def flag (modifiers : KeyModifiers) : Lock → Bool
  | capsLock => modifiers.capsLock
  | numLock => modifiers.numLock
  | scrollLock => modifiers.scrollLock

end Lock

/-- What happened to the locks: an event was answered, or they were synchronized with a client's. -/
inductive LockNote where
  | emitted (event : KeyboardEvent)
  | synchronized (client : Lock → Bool)

/-- The state of a lock by the log, the latest note first: that of the last synchronization, toggled
by each press since. -/
def Lock.expected (lock : Lock) : List LockNote → Bool
  | [] => false
  | .synchronized client :: _ => client lock
  | .emitted (.keyDown keycode _ _ _) :: log => lock.expected log ^^ (keycode = lock.keycode)
  | .emitted _ :: log => lock.expected log

/-! ### Flags -/

namespace KeyboardHandler

variable {k : KeyboardHandler} {keycode : ℕ} {now : Instant}

/-- A key of no lock. -/
theorem flag_of_ne {lock : Lock} {m m' : KeyModifiers} {pressed : Bool}
    (hkey : keycode ≠ lock.keycode) (hflag : lock.flag m' = lock.flag m) :
    lock.flag m' = (lock.flag m ^^ (pressed && keycode = lock.keycode)) := by
  rw [decide_eq_false hkey, Bool.and_false, Bool.xor_false, hflag]

/-- A key that goes down toggles its own lock, and no other. -/
theorem flag_updateModifiers (k : KeyboardHandler) (keycode : ℕ) (pressed : Bool) (lock : Lock) :
    lock.flag (k.updateModifiers keycode pressed) =
      (lock.flag k.modifiers ^^ (pressed && keycode = lock.keycode)) := by
  unfold updateModifiers
  dsimp only
  -- the key is a modifier, a lock or neither; its code says which locks it is not
  split_ifs with hshift hctrl halt hmeta hcaps hnum hscroll
  · obtain rfl | rfl := hshift <;>
      exact flag_of_ne (by cases lock <;> decide) (by cases lock <;> rfl)
  · obtain rfl | rfl := hctrl <;>
      exact flag_of_ne (by cases lock <;> decide) (by cases lock <;> rfl)
  · obtain rfl | rfl := halt <;>
      exact flag_of_ne (by cases lock <;> decide) (by cases lock <;> rfl)
  · obtain rfl | rfl := hmeta <;>
      exact flag_of_ne (by cases lock <;> decide) (by cases lock <;> rfl)
  · subst hcaps
    cases lock <;> simp [Lock.flag, Lock.keycode, KEY_CAPSLOCK, KEY_NUMLOCK, KEY_SCROLLLOCK]
  · subst hnum
    cases lock <;> simp [Lock.flag, Lock.keycode, KEY_CAPSLOCK, KEY_NUMLOCK, KEY_SCROLLLOCK]
  · subst hscroll
    cases lock <;> simp [Lock.flag, Lock.keycode, KEY_CAPSLOCK, KEY_NUMLOCK, KEY_SCROLLLOCK]
  · refine flag_of_ne ?_ rfl
    cases lock
    · exact hcaps
    · exact hnum
    · exact hscroll

/-- The keys to toggle are those of the locks that differ from the client's. -/
theorem synchronizeLocks_toggles (k : KeyboardHandler) (client : Lock → Bool) :
    (k.synchronizeLocks (client .capsLock) (client .numLock) (client .scrollLock)).1 =
      ([Lock.capsLock, .numLock, .scrollLock].filter fun lock =>
        lock.flag k.modifiers ≠ client lock).map Lock.keycode := by
  have hone : ∀ lock : Lock,
      (if lock.flag k.modifiers ≠ client lock then [lock.keycode] else []) =
        ([lock].filter fun lock => lock.flag k.modifiers ≠ client lock).map Lock.keycode := by
    intro lock
    by_cases h : lock.flag k.modifiers = client lock
    · rw [if_neg (not_not.mpr h), List.filter_cons_of_neg (by simpa using h)]
      rfl
    · rw [if_pos h, List.filter_cons_of_pos (by simpa using h)]
      rfl
  show _ = List.map _ (List.filter _ ([Lock.capsLock] ++ [Lock.numLock] ++ [Lock.scrollLock]))
  rw [List.filter_append, List.filter_append, List.map_append, List.map_append, ← hone, ← hone,
    ← hone]
  rfl

theorem flag_synchronizeLocks (k : KeyboardHandler) (client : Lock → Bool) (lock : Lock) :
    lock.flag (k.synchronizeLocks (client .capsLock) (client .numLock)
      (client .scrollLock)).2.modifiers = client lock := by
  cases lock <;> rfl

theorem flag_afterPress (lock : Lock) :
    lock.flag (k.afterPress keycode now).modifiers =
      (lock.flag k.modifiers ^^ (keycode = lock.keycode)) :=
  flag_updateModifiers _ keycode true lock

theorem flag_afterRelease (lock : Lock) :
    lock.flag (k.afterRelease keycode).modifiers = lock.flag k.modifiers :=
  (flag_updateModifiers _ keycode false lock).trans (Bool.xor_false _)

end KeyboardHandler

/-! ### Runs -/

/-- The handler, and what it was told and answered so far. -/
structure LockRun where
  handler : KeyboardHandler
  log : List LockNote

/-- What changes locks. -/
inductive LockOp where
  | keyDown (scancode : UInt16) (extended e1Prefix : Bool) (now : Instant)
  | keyUp (scancode : UInt16) (extended e1Prefix : Bool) (now : Instant)
  | synchronizeLocks (client : Lock → Bool)

namespace LockRun

/-- Nothing was asked of the handler. -/
def start (layout : String) : LockRun := ⟨.new layout, []⟩

/-- The handler answers with an event, or refuses a key that it does not know. -/
def answer (s : LockRun) (result : Except InputError (KeyboardEvent × KeyboardHandler)) : LockRun :=
  match result with
  | .ok (event, handler) => ⟨handler, .emitted event :: s.log⟩
  | .error _ => s

/-- What the handler answers is kept. -/
def step (s : LockRun) : LockOp → LockRun
  | .keyDown scancode extended e1Prefix now =>
    s.answer (s.handler.handleKeyDown scancode extended e1Prefix now)
  | .keyUp scancode extended e1Prefix now =>
    s.answer (s.handler.handleKeyUp scancode extended e1Prefix now)
  | .synchronizeLocks client =>
    ⟨(s.handler.synchronizeLocks (client .capsLock) (client .numLock) (client .scrollLock)).2,
      .synchronized client :: s.log⟩

/-- Each flag is what the log says, and the keys that a synchronization asks to be toggled are those
whose flag is not the client's. -/
def Tracks (s : LockRun) : Prop :=
  (∀ lock : Lock, lock.flag s.handler.modifiers = lock.expected s.log) ∧
    ∀ client : Lock → Bool,
      (s.handler.synchronizeLocks (client .capsLock) (client .numLock) (client .scrollLock)).1 =
        ([Lock.capsLock, .numLock, .scrollLock].filter fun lock =>
          lock.flag s.handler.modifiers ≠ client lock).map Lock.keycode

/-- A repeat of a lock key is let through: the key is down, and has been for long enough. -/
def RepeatsLock (s : LockRun) : LockOp → Prop
  | .keyDown scancode extended e1Prefix now => ∃ lock : Lock,
      ScancodeMapper.translateScancode s.handler.layout scancode.toUInt32 extended e1Prefix =
        .ok lock.keycode ∧
      lock.keycode ∈ s.handler.pressedKeys ∧
      s.handler.suppressesRepeat lock.keycode now = false
  | _ => False

variable {s : LockRun}

theorem tracks_start (layout : String) : (start layout).Tracks :=
  ⟨fun lock => by cases lock <;> rfl, KeyboardHandler.synchronizeLocks_toggles _⟩

/-- Only the flags matter. -/
theorem tracks_iff :
    s.Tracks ↔ ∀ lock : Lock, lock.flag s.handler.modifiers = lock.expected s.log :=
  and_iff_left (KeyboardHandler.synchronizeLocks_toggles _)

/-- Every other step keeps the flags right. -/
theorem Tracks.step {op : LockOp} (h : s.Tracks) (hop : ¬ s.RepeatsLock op) :
    (s.step op).Tracks := by
  rw [tracks_iff] at h ⊢
  intro lock
  cases op with
  | keyDown scancode extended e1Prefix now =>
    rw [LockRun.step]
    cases hcode : ScancodeMapper.translateScancode s.handler.layout scancode.toUInt32 extended
        e1Prefix with
    | error e =>
      rw [KeyboardHandler.handleKeyDown_error hcode]
      exact h lock
    | ok keycode =>
      obtain ⟨-, hresult⟩ | ⟨hlate, hdown, hresult⟩ | ⟨hup, hresult⟩ :=
        KeyboardHandler.handleKeyDown_ok now hcode
      · rw [hresult]
        exact h lock
      · rw [hresult]
        show lock.flag (s.handler.afterPress keycode now).modifiers = lock.expected s.log
        have hother : keycode ≠ lock.keycode := by
          rintro rfl
          exact hop ⟨lock, hcode, hdown, hlate⟩
        rw [KeyboardHandler.flag_afterPress, decide_eq_false hother, Bool.xor_false, h lock]
      · rw [hresult]
        show lock.flag (s.handler.afterPress keycode now).modifiers =
          (lock.expected s.log ^^ (keycode = lock.keycode))
        rw [KeyboardHandler.flag_afterPress, h lock]
  | keyUp scancode extended e1Prefix now =>
    rw [LockRun.step]
    cases hcode : ScancodeMapper.translateScancode s.handler.layout scancode.toUInt32 extended
        e1Prefix with
    | error e =>
      rw [KeyboardHandler.handleKeyUp_error hcode]
      exact h lock
    | ok keycode =>
      obtain ⟨-, hresult⟩ | ⟨-, hresult⟩ := KeyboardHandler.handleKeyUp_ok now hcode
      · rw [hresult]
        exact h lock
      · rw [hresult]
        show lock.flag (s.handler.afterRelease keycode).modifiers = lock.expected s.log
        rw [KeyboardHandler.flag_afterRelease, h lock]
  | synchronizeLocks client => exact KeyboardHandler.flag_synchronizeLocks s.handler client lock

/-- The repeat of a lock key toggles its flag, though the key did not go down. -/
theorem not_tracks_repeat {op : LockOp} (h : s.Tracks) (hop : s.RepeatsLock op) :
    ¬ (s.step op).Tracks := by
  rw [tracks_iff] at h ⊢
  intro htracks
  cases op with
  | keyDown scancode extended e1Prefix now =>
    obtain ⟨lock, hcode, hdown, hlate⟩ := hop
    rw [LockRun.step] at htracks
    obtain ⟨hsoon, -⟩ | ⟨-, -, hresult⟩ | ⟨hup, -⟩ := KeyboardHandler.handleKeyDown_ok now hcode
    · rw [hsoon] at hlate
      cases hlate
    · rw [hresult] at htracks
      have hflag : lock.flag (s.handler.afterPress lock.keycode now).modifiers =
          lock.expected s.log := htracks lock
      rw [KeyboardHandler.flag_afterPress, h lock, decide_eq_true rfl, Bool.xor_true] at hflag
      exact Bool.not_ne_self _ hflag
    · exact hup hdown
  | keyUp scancode extended e1Prefix now => exact hop
  | synchronizeLocks client => exact hop

end LockRun

/-- Key events and synchronizations, in any order. -/
def lockMachine : Machine LockRun LockOp Unit where
  step s op := (s.step op, [])

/-- **The flags of the locks.** They are right throughout a run exactly if no repeat of a lock key
is let through in it. -/
theorem locks_tracked_iff (layout : String) (ops : List LockOp) :
    lockMachine.Always LockRun.Tracks (.start layout) ops ↔
      lockMachine.Along (fun s op => ¬ s.RepeatsLock op) (.start layout) ops :=
  Machine.always_iff_along (I := LockRun.Tracks) (fun _ _ h hop => h.step hop) (fun _ h => h)
    (fun _ _ h hop => LockRun.not_tracks_repeat h (not_not.mp hop)) (LockRun.tracks_start layout)

/-- Caps Lock is pressed, and held for half a second: its flag is off again. -/
theorem held_capsLock_toggled :
    ¬ lockMachine.Always LockRun.Tracks (.start "us")
      [.keyDown 0x3A false false 0, .keyDown 0x3A false false 500000000] := by
  rintro ⟨-, -, hflags, -⟩
  have hcaps := hflags .capsLock
  revert hcaps
  decide

end Input

end Cheirizo
