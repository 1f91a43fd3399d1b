import Cheirizo.Input.Keyboard

/-!
# From events to injections

`channels/input/mouse.rs` and the event handlers of `server/input_handler.rs`. Each event of the
client changes the state kept for it and names what is to be injected into the compositor, in order;
the first injection that fails ends the event. Text that no key gives is pasted, and the four
injections of a paste are made whether they fail or not.

## What is not modelled

Pointer positions and scrolled distances are floating-point numbers: whether a move can be mapped to
a screen, and whether a scroll adds up to a step, are inputs of the event. The pointer shapes sent
to one kind of client, and the clipboard around a paste, have no part in what is injected.

## Main definitions

* `MouseHandler.acceptButtonTransition` — a button changes, and not too soon after it went up
* `Handlers.plan` — what an event injects

## Main results

* `planPressed_spec` — a key that is pressed is kept
* `planReleased_spec`, `planButton_spec`, `planSynchronize_spec` — what is let go, changed or
  synchronized is injected once, and then forgotten
-/

namespace Cheirizo

namespace Input

/-! ### Buttons -/

/-- The five buttons of the protocol. -/
inductive MouseButton where
  | left
  | right
  | middle
  | extra1
  | extra2
  deriving DecidableEq, Repr

/-- Which buttons are down, and when each was last let go. -/
structure MouseHandler where
  buttonStates : MouseButton → Bool
  lastButtonRelease : MouseButton → Option Instant

namespace MouseHandler

/-- No button is down. -/
def new : MouseHandler := ⟨fun _ => false, fun _ => none⟩

/-- A button that changes. A press right after a release is the same click on another way in. -/
def acceptButtonTransition (m : MouseHandler) (button : MouseButton) (pressed : Bool)
    (now : Instant) : Bool × MouseHandler :=
  if m.buttonStates button = pressed then (false, m)
  else if pressed && (m.lastButtonRelease button).any fun released => now - released < millis 8 then
    (false, m)
  else
    (true, {
      buttonStates := Function.update m.buttonStates button pressed
      lastButtonRelease :=
        if pressed then m.lastButtonRelease
        else Function.update m.lastButtonRelease button (some now) })

end MouseHandler

/-! ### Text -/

/-- The key and shift for a character of the US layout. -/
def unicodeKeys : List (UInt16 × ℕ × Bool) :=
  [(0x20, 57, false), (0x09, 15, false), (0x0A, 28, false), (0x0D, 28, false),
    (0x30, 11, false), (0x31, 2, false), (0x32, 3, false), (0x33, 4, false), (0x34, 5, false),
    (0x35, 6, false), (0x36, 7, false), (0x37, 8, false), (0x38, 9, false), (0x39, 10, false),
    (0x61, 30, false), (0x62, 48, false), (0x63, 46, false), (0x64, 32, false),
    (0x65, 18, false), (0x66, 33, false), (0x67, 34, false), (0x68, 35, false),
    (0x69, 23, false), (0x6A, 36, false), (0x6B, 37, false), (0x6C, 38, false),
    (0x6D, 50, false), (0x6E, 49, false), (0x6F, 24, false), (0x70, 25, false),
    (0x71, 16, false), (0x72, 19, false), (0x73, 31, false), (0x74, 20, false),
    (0x75, 22, false), (0x76, 47, false), (0x77, 17, false), (0x78, 45, false),
    (0x79, 21, false), (0x7A, 44, false), (0x41, 30, true), (0x42, 48, true), (0x43, 46, true),
    (0x44, 32, true), (0x45, 18, true), (0x46, 33, true), (0x47, 34, true), (0x48, 35, true),
    (0x49, 23, true), (0x4A, 36, true), (0x4B, 37, true), (0x4C, 38, true), (0x4D, 50, true),
    (0x4E, 49, true), (0x4F, 24, true), (0x50, 25, true), (0x51, 16, true), (0x52, 19, true),
    (0x53, 31, true), (0x54, 20, true), (0x55, 22, true), (0x56, 47, true), (0x57, 17, true),
    (0x58, 45, true), (0x59, 21, true), (0x5A, 44, true), (0x2D, 12, false), (0x3D, 13, false),
    (0x5B, 26, false), (0x5D, 27, false), (0x5C, 43, false), (0x3B, 39, false),
    (0x27, 40, false), (0x60, 41, false), (0x2C, 51, false), (0x2E, 52, false),
    (0x2F, 53, false), (0x21, 2, true), (0x40, 3, true), (0x23, 4, true), (0x24, 5, true),
    (0x25, 6, true), (0x5E, 7, true), (0x26, 8, true), (0x2A, 9, true), (0x28, 10, true),
    (0x29, 11, true), (0x5F, 12, true), (0x2B, 13, true), (0x7B, 26, true), (0x7D, 27, true),
    (0x7C, 43, true), (0x3A, 39, true), (0x22, 40, true), (0x7E, 41, true), (0x3C, 51, true),
    (0x3E, 52, true), (0x3F, 53, true)]

/-- The key that types a unit, and whether Shift has to be held. -/
def unicodeToEvdev (cp : UInt16) : Option (ℕ × Bool) := unicodeKeys.lookup cp

/-- The keysym of a code unit that is a character by itself and no control character. -/
def unicodeToKeysym (cp : UInt16) : Option ℕ :=
  if 0xD800 ≤ cp ∧ cp ≤ 0xDFFF then none
  else if cp ≤ 0x001F ∨ (0x007F ≤ cp ∧ cp ≤ 0x009F) then none
  else if cp ≤ 0x00FF then some cp.toNat
  else some (0x01000000 + cp.toNat)

/-- Text waiting to be pasted, and the first half of a character outside the basic plane. -/
structure CjkPasteBuffer where
  buf : List Char
  pendingHighSurrogate : Option UInt16
  deriving DecidableEq, Repr

namespace CjkPasteBuffer

/-- Nothing waits to be pasted. -/
def new : CjkPasteBuffer := ⟨[], none⟩

/-- Half a surrogate pair counts as something. -/
def isEmpty (b : CjkPasteBuffer) : Bool := b.buf.isEmpty && b.pendingHighSurrogate.isNone

/-- The text, if there is any. -/
def takeText (b : CjkPasteBuffer) : Option (List Char) × CjkPasteBuffer :=
  (if b.buf.isEmpty then none else some b.buf, new)

end CjkPasteBuffer

/-! ### Events and injections -/

/-- What a client's keyboard reports. -/
inductive IronKeyboardEvent where
  | pressed (code : UInt8) (extended : Bool)
  | released (code : UInt8) (extended : Bool)
  | unicodePressed (unicode : UInt16)
  | unicodeReleased (unicode : UInt16)
  | synchronize (capsLock numLock scrollLock : Bool)
  deriving DecidableEq, Repr

/-- What a client's mouse reports. -/
inductive IronMouseEvent where
  | move (x y : UInt16)
  | relMove (x y : Int32)
  | button (button : MouseButton) (pressed : Bool)
  | verticalScroll (value : Int16)
  | scroll (x y : Int32)
  deriving DecidableEq, Repr

/-- What a client's devices report. -/
inductive InputEvent where
  | keyboard (event : IronKeyboardEvent)
  | mouse (event : IronMouseEvent)
  deriving DecidableEq, Repr

/-- A call of the session. -/
inductive Injection where
  | keycode (keycode : ℕ) (pressed : Bool)
  | keysym (keysym : ℕ) (pressed : Bool)
  | button (button : MouseButton) (pressed : Bool)
  | motionAbsolute
  | axis
  deriving DecidableEq, Repr

/-- What an event is to inject: a paste first, then the calls in order, unless it is refused. -/
structure Plan where
  paste : Bool
  injections : Except InputError (List Injection)
  deriving DecidableEq

/-- Whether characters without a key are pasted, and can be. -/
structure InputConfig where
  cjkPasteEnabled : Bool
  hasClipboardProvider : Bool

/-- What the outside world adds to an event: the time, whether a position lies on a screen, and
whether a scroll adds up to a step. -/
structure Circumstances where
  now : Instant
  onScreen : Bool
  scrolls : Bool

/-- The state that the handlers of keyboard, mouse and pasted text keep. -/
structure Handlers where
  keyboard : KeyboardHandler
  mouse : MouseHandler
  cjkBuffer : CjkPasteBuffer

namespace Handlers

/-- Nothing is pressed. -/
def new (layout : String) : Handlers := ⟨.new layout, .new, .new⟩

variable (config : InputConfig) (h : Handlers)

/-- Paste what is in the buffer, if there is a clipboard to do it with. -/
def flushCjkBuffer : Bool × Handlers :=
  let taken := h.cjkBuffer.takeText
  (taken.1.isSome && config.hasClipboardProvider, { h with cjkBuffer := taken.2 })

/-- Put a character into the buffer, and paste. -/
def pasteChar (c : Char) : Bool × Handlers :=
  { h with cjkBuffer := { h.cjkBuffer with buf := h.cjkBuffer.buf ++ [c] } }.flushCjkBuffer config

/-- Text without a key of its own: whether it is pasted now. -/
def pasteUnicode (unicode : UInt16) : Bool × Handlers :=
  if 0xD800 ≤ unicode ∧ unicode ≤ 0xDBFF then
    (false, { h with cjkBuffer := { h.cjkBuffer with pendingHighSurrogate := some unicode } })
  else if 0xDC00 ≤ unicode ∧ unicode ≤ 0xDFFF then
    match h.cjkBuffer.pendingHighSurrogate with
    | some high =>
      let h := { h with cjkBuffer := { h.cjkBuffer with pendingHighSurrogate := none } }
      if 0xD800 ≤ high ∧ high ≤ 0xDBFF then
        h.pasteChar config (.ofNat
          (0x10000 + (high.toNat - 0xD800) * 0x400 + (unicode.toNat - 0xDC00)))
      else (false, h)
    | none => (false, h)
  else h.pasteChar config (.ofNat unicode.toNat)

/-- Text that waits is pasted first, since the key may be a command to what it was meant for. -/
def planPressed (code : UInt8) (extended : Bool) (now : Instant) : Plan × Handlers :=
  let flushed := if h.cjkBuffer.isEmpty then (false, h) else h.flushCjkBuffer config
  match flushed.2.keyboard.handleKeyDown code.toUInt16 extended false now with
  | .error e => (⟨flushed.1, .error e⟩, flushed.2)
  | .ok (event, keyboard) =>
    match event with
    | .ignored _ => (⟨flushed.1, .ok []⟩, { flushed.2 with keyboard })
    | .keyDown keycode _ _ _ | .keyRepeat keycode _ _ _ | .keyUp keycode _ _ _ =>
      (⟨flushed.1, .ok [.keycode keycode true]⟩, { flushed.2 with keyboard })

/-- Only a key that was pressed is released. -/
def planReleased (code : UInt8) (extended : Bool) (now : Instant) : Plan × Handlers :=
  match h.keyboard.handleKeyUp code.toUInt16 extended false now with
  | .error e => (⟨false, .error e⟩, h)
  | .ok (event, keyboard) =>
    match event with
    | .keyUp keycode _ _ _ => (⟨false, .ok [.keycode keycode false]⟩, { h with keyboard })
    | _ => (⟨false, .ok []⟩, { h with keyboard })

/-- Where no key types the unit, it waits to be pasted, or goes out as a keysym. -/
def planUnicodePressed (unicode : UInt16) : Plan × Handlers :=
  match unicodeToEvdev unicode with
  | some (keycode, needsShift) =>
    (⟨false, .ok ((if needsShift then [.keycode KEY_LEFTSHIFT true] else []) ++
      [.keycode keycode true])⟩, h)
  | none =>
    if config.cjkPasteEnabled then
      let pasted := h.pasteUnicode config unicode
      (⟨pasted.1, .ok []⟩, pasted.2)
    else
      match unicodeToKeysym unicode with
      | some keysym => (⟨false, .ok [.keysym keysym true]⟩, h)
      | none => (⟨false, .ok []⟩, h)

/-- The calls for text that is let go; nothing is kept about it. -/
def unicodeReleases (unicode : UInt16) : List Injection :=
  match unicodeToEvdev unicode with
  | some (keycode, needsShift) =>
    .keycode keycode false :: if needsShift then [.keycode KEY_LEFTSHIFT false] else []
  | none =>
    match unicodeToKeysym unicode with
    | some keysym => [.keysym keysym false]
    | none => []

/-- A lock that differs is toggled by a press and a release. -/
def planSynchronize (capsLock numLock scrollLock : Bool) : Plan × Handlers :=
  let synchronized := h.keyboard.synchronizeLocks capsLock numLock scrollLock
  (⟨false, .ok (synchronized.1.flatMap fun keycode =>
    [.keycode keycode true, .keycode keycode false])⟩, { h with keyboard := synchronized.2 })

/-- A release of text does not look at the handlers. -/
def planKeyboard (event : IronKeyboardEvent) (now : Instant) : Plan × Handlers :=
  match event with
  | .pressed code extended => h.planPressed config code extended now
  | .released code extended => h.planReleased code extended now
  | .unicodePressed unicode => h.planUnicodePressed config unicode
  | .unicodeReleased unicode => (⟨false, .ok (unicodeReleases unicode)⟩, h)
  | .synchronize capsLock numLock scrollLock => h.planSynchronize capsLock numLock scrollLock

/-- What a mouse event injects. -/
def planMouse (event : IronMouseEvent) (circumstances : Circumstances) : Plan × Handlers :=
  match event with
  | .move _ _ | .relMove _ _ =>
    (⟨false,
      if circumstances.onScreen then .ok [.motionAbsolute] else .error .invalidCoordinate⟩, h)
  | .button button pressed =>
    let accepted := h.mouse.acceptButtonTransition button pressed circumstances.now
    (⟨false, .ok (if accepted.1 then [.button button pressed] else [])⟩,
      { h with mouse := accepted.2 })
  | .verticalScroll _ | .scroll _ _ =>
    (⟨false, .ok (if circumstances.scrolls then [.axis, .axis] else [])⟩, h)

/-- What an event injects, and the handlers after it. -/
def plan (event : InputEvent) (circumstances : Circumstances) : Plan × Handlers :=
  match event with
  | .keyboard event => h.planKeyboard config event circumstances.now
  | .mouse event => h.planMouse event circumstances

/-! ### What an event leaves behind -/

theorem flushed_eq :
    (if h.cjkBuffer.isEmpty then (false, h) else h.flushCjkBuffer config).2.mouse = h.mouse ∧
      (if h.cjkBuffer.isEmpty then (false, h) else h.flushCjkBuffer config).2.keyboard =
        h.keyboard := by
  split
  · exact ⟨rfl, rfl⟩
  · exact ⟨rfl, rfl⟩

/-- A key that is pressed is kept, and nothing else is let go. -/
theorem planPressed_spec (code : UInt8) (extended : Bool) (now : Instant) :
    (h.planPressed config code extended now).2.mouse = h.mouse ∧
      h.keyboard.pressedKeys ⊆ (h.planPressed config code extended now).2.keyboard.pressedKeys ∧
      ∀ injections, (h.planPressed config code extended now).1.injections = .ok injections →
        ∀ i ∈ injections,
          ∃ keycode ∈ (h.planPressed config code extended now).2.keyboard.pressedKeys,
            i = .keycode keycode true := by
  obtain ⟨hmouse, hkeyboard⟩ := flushed_eq config h
  rw [planPressed]
  dsimp only
  rw [hkeyboard]
  cases hdown : h.keyboard.handleKeyDown code.toUInt16 extended false now with
  | error e =>
    refine ⟨hmouse, by rw [hkeyboard], fun injections hnone => ?_⟩
    cases hnone
  | ok result =>
    obtain ⟨event, keyboard⟩ := result
    obtain ⟨keycode, ⟨rfl, rfl⟩ | ⟨rfl, ⟨-, rfl⟩ | ⟨-, rfl⟩⟩⟩ :=
      KeyboardHandler.handleKeyDown_cases hdown
    · refine ⟨hmouse, Finset.Subset.refl _, fun injections hnone => ?_⟩
      cases hnone
      exact fun i hi => absurd hi List.not_mem_nil
    all_goals
      refine ⟨hmouse, Finset.subset_insert _ _, fun injections hone => ?_⟩
      cases hone
      intro i hi
      rw [List.mem_singleton] at hi
      exact ⟨keycode, Finset.mem_insert_self _ _, hi⟩

/-- A key that is let go is injected once, and forgotten. -/
theorem planReleased_spec (code : UInt8) (extended : Bool) (now : Instant) :
    (h.planReleased code extended now).2.mouse = h.mouse ∧
      (((h.planReleased code extended now).2 = h ∧
          ∀ injections, (h.planReleased code extended now).1.injections = .ok injections →
            injections = []) ∨
        ∃ keycode,
          (h.planReleased code extended now).2.keyboard.pressedKeys =
            h.keyboard.pressedKeys.erase keycode ∧
          (h.planReleased code extended now).1.injections = .ok [.keycode keycode false] ∧
          ∀ now', ((h.planReleased code extended now).2.planReleased code extended
            now').1.injections = .ok []) := by
  cases hcode : ScancodeMapper.translateScancode h.keyboard.layout code.toUInt16.toUInt32 extended
    false with
  | error e =>
    rw [planReleased, KeyboardHandler.handleKeyUp_error hcode]
    refine ⟨rfl, Or.inl ⟨rfl, fun injections hnone => ?_⟩⟩
    cases hnone
  | ok keycode =>
    obtain ⟨hup, hresult⟩ | ⟨-, hresult⟩ := KeyboardHandler.handleKeyUp_ok now hcode
    · rw [planReleased, hresult]
      refine ⟨rfl, Or.inl ⟨rfl, fun injections hnone => ?_⟩⟩
      cases hnone
      rfl
    · have hplan : h.planReleased code extended now =
          (⟨false, .ok [.keycode keycode false]⟩,
            { h with keyboard := h.keyboard.afterRelease keycode }) := by
        rw [planReleased, hresult]
      rw [hplan]
      refine ⟨rfl, Or.inr ⟨keycode, rfl, rfl, fun now' => ?_⟩⟩
      have hcode' : ScancodeMapper.translateScancode (h.keyboard.afterRelease keycode).layout
          code.toUInt16.toUInt32 extended false = .ok keycode := hcode
      obtain ⟨-, hagain⟩ | ⟨hdown, -⟩ := KeyboardHandler.handleKeyUp_ok now' hcode'
      · rw [planReleased, hagain]
      · exact absurd hdown (Finset.notMem_erase _ _)

theorem planReleased_paste (code : UInt8) (extended : Bool) (now : Instant) :
    (h.planReleased code extended now).1.paste = false := by
  rw [planReleased]
  split
  · rfl
  · split
    · rfl
    · rfl

theorem planSynchronize_spec (capsLock numLock scrollLock : Bool) :
    ((h.planSynchronize capsLock numLock scrollLock).2.planSynchronize capsLock numLock
      scrollLock).1.injections = .ok [] := by
  show Except.ok (List.flatMap _
    ((h.keyboard.synchronizeLocks capsLock numLock scrollLock).2.synchronizeLocks capsLock numLock
      scrollLock).1) = _
  rw [KeyboardHandler.synchronizeLocks_again]
  rfl

theorem pasteUnicode_spec (unicode : UInt16) :
    (h.pasteUnicode config unicode).2.mouse = h.mouse ∧
      (h.pasteUnicode config unicode).2.keyboard = h.keyboard := by
  rw [pasteUnicode]
  split
  · exact ⟨rfl, rfl⟩
  · split
    · split
      · dsimp only
        split
        · exact ⟨rfl, rfl⟩
        · exact ⟨rfl, rfl⟩
      · exact ⟨rfl, rfl⟩
    · exact ⟨rfl, rfl⟩

/-- Text changes nothing that is kept about keys and buttons. -/
theorem planUnicodePressed_spec (unicode : UInt16) :
    (h.planUnicodePressed config unicode).2.mouse = h.mouse ∧
      (h.planUnicodePressed config unicode).2.keyboard = h.keyboard := by
  rw [planUnicodePressed]
  split
  · exact ⟨rfl, rfl⟩
  · split
    · exact pasteUnicode_spec config h unicode
    · split
      · exact ⟨rfl, rfl⟩
      · exact ⟨rfl, rfl⟩

/-- Text moves no button. -/
theorem button_notMem_planUnicodePressed {unicode : UInt16} {injections : List Injection}
    (hplan : (h.planUnicodePressed config unicode).1.injections = .ok injections)
    (button : MouseButton) (pressed : Bool) : Injection.button button pressed ∉ injections := by
  rw [planUnicodePressed] at hplan
  split at hplan
  · rename_i keycode needsShift hkey
    cases hplan
    cases needsShift <;> simp
  · split at hplan
    · cases hplan
      exact List.not_mem_nil
    · split at hplan
      · cases hplan
        simp
      · cases hplan
        exact List.not_mem_nil

theorem button_notMem_unicodeReleases (unicode : UInt16) (button : MouseButton) (pressed : Bool) :
    Injection.button button pressed ∉ unicodeReleases unicode := by
  rw [unicodeReleases]
  split
  · rename_i keycode needsShift hkey
    cases needsShift <;> simp
  · split
    · simp
    · exact List.not_mem_nil

theorem button_notMem_planSynchronize {capsLock numLock scrollLock : Bool}
    {injections : List Injection}
    (hplan : (h.planSynchronize capsLock numLock scrollLock).1.injections = .ok injections)
    (button : MouseButton) (pressed : Bool) : Injection.button button pressed ∉ injections := by
  cases hplan
  simp

/-- A button that changes is injected once, and the same change is not made again. -/
theorem planButton_spec (button : MouseButton) (pressed : Bool) (circumstances : Circumstances) :
    (h.planMouse (.button button pressed) circumstances).2.keyboard = h.keyboard ∧
      (((h.planMouse (.button button pressed) circumstances).2.mouse = h.mouse ∧
          (h.planMouse (.button button pressed) circumstances).1.injections = .ok []) ∨
        ((h.planMouse (.button button pressed) circumstances).2.mouse.buttonStates =
            Function.update h.mouse.buttonStates button pressed ∧
          (h.planMouse (.button button pressed) circumstances).1.injections =
            .ok [.button button pressed])) := by
  refine ⟨rfl, ?_⟩
  rw [planMouse, MouseHandler.acceptButtonTransition]
  dsimp only
  split
  · exact Or.inl ⟨rfl, rfl⟩
  · split
    · exact Or.inl ⟨rfl, rfl⟩
    · exact Or.inr ⟨rfl, rfl⟩

/-- Moving and scrolling move no button. -/
theorem button_notMem_planMouse {event : IronMouseEvent} {circumstances : Circumstances}
    (hevent : ∀ button pressed, event ≠ .button button pressed) {injections : List Injection}
    (hplan : (h.planMouse event circumstances).1.injections = .ok injections)
    (button : MouseButton) (pressed : Bool) : Injection.button button pressed ∉ injections := by
  cases event with
  | button button pressed => exact absurd rfl (hevent button pressed)
  | move x y | relMove x y =>
    rw [planMouse] at hplan
    dsimp only at hplan
    split at hplan
    · cases hplan
      simp
    · cases hplan
  | verticalScroll value | scroll x y =>
    rw [planMouse] at hplan
    cases hplan
    split
    · simp
    · exact List.not_mem_nil

variable {h} in
/-- A change to the state a button is in is not made. -/
theorem planButton_same {button : MouseButton} {pressed : Bool}
    (hsame : h.mouse.buttonStates button = pressed) (circumstances : Circumstances) :
    (h.planMouse (.button button pressed) circumstances).1.injections = .ok [] := by
  rw [planMouse, MouseHandler.acceptButtonTransition]
  dsimp only
  rw [if_pos hsame]
  rfl

end Handlers

end Input

end Cheirizo
