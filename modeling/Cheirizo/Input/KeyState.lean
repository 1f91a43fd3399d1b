import Mathlib.Data.Multiset.AddSub
import Cheirizo.Input.Worker

/-!
# Keys that go down and come up

Keys are put down and let go of from four sides: by the keys of the client, by its text, by the
Ctrl and V of a paste, and by the locks. Only the first is kept track of. This module is about what
one event injects, with all injections succeeding, and what the compositor makes of it.

## The compositor

A key may go down twice and come up once: the client holds it and types it, or it repeats. So
presses are counted: one is unmatched until a release takes it back. Beside the count it is kept
which keys went down last, for a compositor may also take the last call about a key for the truth.
What went down last has an unmatched press, and a `KeyState` carries the proof of it.

## Main definitions

* `KeyState` — what the compositor holds down
* `typingMachine` — keyboard events, all of whose injections succeed
* `textKeys`, `typedKeys` — the keys of text
* `Handlers.repeats`, `Handlers.pastes` — what a press of a key or of text comes to

## Main results

* `count_exec` — releases and what is left unmatched make up the presses
* `Handlers.injected_count` — what one event puts down and lets go of, key for key
* `exec_presses`, `exec_releases`, `exec_taps`, `exec_pasteInjections` — what is down afterwards
-/

namespace Cheirizo

namespace Input

/-! ### The compositor -/

/-- A key of the keyboard, or a symbol. -/
inductive Key where
  | keycode (code : ℕ)
  | keysym (symbol : ℕ)
  deriving DecidableEq, Repr

/-- The call that puts the key down, or lets go of it. -/
def Key.injection : Key → Bool → Injection
  | .keycode code, pressed => .keycode code pressed
  | .keysym symbol, pressed => .keysym symbol pressed

theorem Key.injection_inj {key key' : Key} {pressed pressed' : Bool} :
    key.injection pressed = key'.injection pressed' ↔ key = key' ∧ pressed = pressed' := by
  cases key <;> cases key' <;> simp [injection]

/-- The presses that no release has taken back, and the keys whose last call was a press. -/
structure KeyState where
  unmatched : Multiset Key
  down : Finset Key
  /-- A key that went down last has not come up since. -/
  down_unmatched : ∀ key ∈ down, key ∈ unmatched

namespace KeyState

/-- No key is down. -/
def empty : KeyState := ⟨0, ∅, fun key h => absurd h (Finset.notMem_empty key)⟩

/-- A press goes unmatched until something lets go of the key. -/
def press (b : KeyState) (key : Key) : KeyState where
  unmatched := key ::ₘ b.unmatched
  down := insert key b.down
  down_unmatched := by
    intro k hk
    obtain rfl | hk := Finset.mem_insert.mp hk
    · exact Multiset.mem_cons_self _ _
    · exact Multiset.mem_cons_of_mem (b.down_unmatched k hk)

/-- A release takes back one press. -/
def release (b : KeyState) (key : Key) : KeyState where
  unmatched := b.unmatched.erase key
  down := b.down.erase key
  down_unmatched := by
    intro k hk
    obtain ⟨hne, hk⟩ := Finset.mem_erase.mp hk
    exact (Multiset.mem_erase_of_ne hne).mpr (b.down_unmatched k hk)

/-- Only keys count. Pointer events change nothing here. -/
def receive (b : KeyState) : Injection → KeyState
  | .keycode keycode true => b.press (.keycode keycode)
  | .keycode keycode false => b.release (.keycode keycode)
  | .keysym keysym true => b.press (.keysym keysym)
  | .keysym keysym false => b.release (.keysym keysym)
  | _ => b

/-- A release has a press that no other release has taken back. -/
def Matched (b : KeyState) : Injection → Prop
  | .keycode keycode false => .keycode keycode ∈ b.unmatched
  | .keysym keysym false => .keysym keysym ∈ b.unmatched
  | _ => True

instance decidableMatched (b : KeyState) : ∀ i, Decidable (b.Matched i)
  | .keycode keycode false => inferInstanceAs (Decidable (.keycode keycode ∈ b.unmatched))
  | .keysym keysym false => inferInstanceAs (Decidable (.keysym keysym ∈ b.unmatched))
  | .keycode _ true | .keysym _ true | .button _ _ | .motionAbsolute | .axis => isTrue trivial

@[simp] theorem receive_true (b : KeyState) (key : Key) :
    b.receive (key.injection true) = b.press key := by
  cases key <;> rfl

@[simp] theorem receive_false (b : KeyState) (key : Key) :
    b.receive (key.injection false) = b.release key := by
  cases key <;> rfl

@[simp] theorem matched_true (b : KeyState) (key : Key) : b.Matched (key.injection true) := by
  cases key <;> exact trivial

@[simp] theorem matched_false (b : KeyState) (key : Key) :
    b.Matched (key.injection false) ↔ key ∈ b.unmatched := by
  cases key <;> exact Iff.rfl

/-- A call is about a key, or changes nothing. -/
theorem injection_cases (i : Injection) :
    (∃ key pressed, i = Key.injection key pressed) ∨
      ((∀ key pressed, i ≠ Key.injection key pressed) ∧ ∀ b : KeyState, b.receive i = b) := by
  cases i with
  | keycode keycode pressed => exact .inl ⟨.keycode keycode, pressed, rfl⟩
  | keysym keysym pressed => exact .inl ⟨.keysym keysym, pressed, rfl⟩
  | button button pressed => exact .inr ⟨fun key pressed => by cases key <;> nofun, fun _ => rfl⟩
  | motionAbsolute => exact .inr ⟨fun key pressed => by cases key <;> nofun, fun _ => rfl⟩
  | axis => exact .inr ⟨fun key pressed => by cases key <;> nofun, fun _ => rfl⟩

/-- One call: releases and what is left unmatched make up the presses. -/
theorem count_receive {b : KeyState} {i : Injection} (h : b.Matched i) (key : Key) :
    (b.receive i).unmatched.count key + [i].count (key.injection false) =
      b.unmatched.count key + [i].count (key.injection true) := by
  obtain ⟨key', pressed, rfl⟩ | ⟨hother, hsame⟩ := injection_cases i
  · cases pressed with
    | true =>
      rw [receive_true, List.count_singleton, List.count_singleton]
      by_cases hkey : key = key'
      · subst hkey
        simp [press, Key.injection_inj]
      · simp [press, Key.injection_inj, Multiset.count_cons_of_ne hkey, Ne.symm hkey]
    | false =>
      rw [receive_false, List.count_singleton, List.count_singleton]
      rw [matched_false] at h
      by_cases hkey : key = key'
      · subst hkey
        have hpos : 0 < b.unmatched.count key := Multiset.count_pos.mpr h
        simp only [release, Key.injection_inj, Multiset.count_erase_self, beq_iff_eq, if_true]
        simp
        omega
      · simp [release, Key.injection_inj, Multiset.count_erase_of_ne hkey, Ne.symm hkey]
  · rw [hsame, List.count_singleton, List.count_singleton, beq_eq_false_iff_ne.mpr (hother _ _),
      beq_eq_false_iff_ne.mpr (hother _ _)]

end KeyState

/-- The compositor, as a machine. -/
def keyMachine : Machine KeyState Injection Unit where
  step b i := (b.receive i, [])

/-- Over calls whose releases are matched, releases and what is left unmatched make up the
presses. -/
theorem count_exec {b : KeyState} {injections : List Injection}
    (h : keyMachine.Along KeyState.Matched b injections) (key : Key) :
    (keyMachine.exec b injections).unmatched.count key + injections.count (key.injection false) =
      b.unmatched.count key + injections.count (key.injection true) := by
  induction injections generalizing b with
  | nil => rfl
  | cons i injections ih =>
    have hhead := KeyState.count_receive h.1 key
    have htail := ih h.2
    rw [Machine.exec_cons, List.count_cons, List.count_cons]
    rw [List.count_singleton, List.count_singleton] at hhead
    change (b.receive i).unmatched.count key + _ = _ at hhead
    change _ = (b.receive i).unmatched.count key + _ at htail
    change (keyMachine.exec (b.receive i) injections).unmatched.count key + _ = _
    change (keyMachine.exec (b.receive i) injections).unmatched.count key + _ = _ at htail
    omega

/-! ### Typing -/

/-- The handlers, and what the compositor holds. -/
structure Typing where
  handlers : Handlers
  backend : KeyState

namespace Typing

/-- Nothing was typed. -/
def start (layout : String) : Typing := ⟨.new layout, .empty⟩

/-- The injections of a plan. -/
def injected (plan : Plan) : List Injection :=
  (if plan.paste then pasteInjections else []) ++
    match plan.injections with
    | .ok injections => injections
    | .error _ => []

/-- An event is planned, and all of the plan is injected. -/
def step (config : InputConfig) (s : Typing) (event : IronKeyboardEvent × Instant) :
    Typing × List Injection :=
  let planned := s.handlers.planKeyboard config event.1 event.2
  (⟨planned.2, keyMachine.exec s.backend (injected planned.1)⟩, injected planned.1)

end Typing

/-- Keyboard events, all of whose injections succeed. -/
def typingMachine (config : InputConfig) :
    Machine Typing (IronKeyboardEvent × Instant) Injection where
  step := Typing.step config

/-! ### Text and repeats -/

/-- The keys that text goes up as: its key and the Shift it takes, or its symbol. -/
def textKeys (unicode : UInt16) : List Key :=
  match unicodeToEvdev unicode with
  | some (keycode, needsShift) =>
    .keycode keycode :: if needsShift then [.keycode KEY_LEFTSHIFT] else []
  | none =>
    match unicodeToKeysym unicode with
    | some keysym => [.keysym keysym]
    | none => []

/-- The keys that text goes down as: the same, but with the paste on no symbol. -/
def typedKeys (config : InputConfig) (unicode : UInt16) : List Key :=
  if (unicodeToEvdev unicode).isNone && config.cjkPasteEnabled then [] else textKeys unicode

namespace IronKeyboardEvent

/-- The event puts the key down as text. -/
def types (config : InputConfig) (key : Key) : IronKeyboardEvent → Bool
  | .unicodePressed unicode => key ∈ typedKeys config unicode
  | _ => false

/-- The event lets go of the key as text. -/
def untypes (key : Key) : IronKeyboardEvent → Bool
  | .unicodeReleased unicode => key ∈ textKeys unicode
  | _ => false

end IronKeyboardEvent

namespace Handlers

/-- The key that goes down once more, while the client holds it. -/
def repeats (h : Handlers) : IronKeyboardEvent × Instant → Option Key
  | (.pressed code extended, now) =>
    match ScancodeMapper.translateScancode h.keyboard.layout code.toUInt16.toUInt32 extended
      false with
    | .ok keycode =>
      if keycode ∈ h.keyboard.pressedKeys ∧ h.keyboard.suppressesRepeat keycode now = false then
        some (.keycode keycode)
      else none
    | .error _ => none
  | _ => none

/-- The text is pasted: there is no key for it, and the character is complete. -/
def pastes (config : InputConfig) (h : Handlers) (unicode : UInt16) : Bool :=
  (unicodeToEvdev unicode).isNone && config.cjkPasteEnabled && config.hasClipboardProvider &&
    if 0xD800 ≤ unicode ∧ unicode ≤ 0xDBFF then false
    else if 0xDC00 ≤ unicode ∧ unicode ≤ 0xDFFF then h.cjkBuffer.pendingHighSurrogate.isSome
    else true

end Handlers

/-- The handlers alone, and the keys that repeat. -/
def handlersMachine (config : InputConfig) :
    Machine Handlers (IronKeyboardEvent × Instant) Key where
  step h event := ((h.planKeyboard config event.1 event.2).2, (h.repeats event).toList)

/-! ### The paste buffer -/

/-- Between events the buffer holds half a character at most. -/
structure CjkPasteBuffer.Settled (b : CjkPasteBuffer) : Prop where
  buf : b.buf = []
  pending : ∀ high ∈ b.pendingHighSurrogate, 0xD800 ≤ high ∧ high ≤ 0xDBFF

theorem CjkPasteBuffer.Settled.new : CjkPasteBuffer.new.Settled where
  buf := rfl
  pending high h := by cases h

namespace Handlers

variable (config : InputConfig) {h : Handlers}

/-- With nothing but half a character in the buffer there is nothing to paste before a key. -/
theorem flushed_settled (hbuffer : h.cjkBuffer.Settled) :
    (if h.cjkBuffer.isEmpty then (false, h) else h.flushCjkBuffer config).1 = false ∧
      (if h.cjkBuffer.isEmpty then (false, h)
        else h.flushCjkBuffer config).2.cjkBuffer.Settled := by
  split
  · exact ⟨rfl, hbuffer⟩
  · refine ⟨?_, CjkPasteBuffer.Settled.new⟩
    rw [flushCjkBuffer, CjkPasteBuffer.takeText, hbuffer.buf]
    rfl

theorem repeats_ok {code : UInt8} {extended : Bool} {keycode : ℕ} (now : Instant)
    (hcode : ScancodeMapper.translateScancode h.keyboard.layout code.toUInt16.toUInt32 extended
      false = .ok keycode) :
    h.repeats (.pressed code extended, now) =
      if keycode ∈ h.keyboard.pressedKeys ∧ h.keyboard.suppressesRepeat keycode now = false then
        some (.keycode keycode)
      else none := by
  rw [repeats, hcode]

theorem repeats_error {code : UInt8} {extended : Bool} {e : InputError} (now : Instant)
    (hcode : ScancodeMapper.translateScancode h.keyboard.layout code.toUInt16.toUInt32 extended
      false = .error e) :
    h.repeats (.pressed code extended, now) = none := by
  rw [repeats, hcode]

/-- A key that goes down is kept and injected, or neither; it repeats if it was kept before. -/
theorem planPressed_injected (hbuffer : h.cjkBuffer.Settled) (code : UInt8) (extended : Bool)
    (now : Instant) :
    (h.planPressed config code extended now).2.cjkBuffer.Settled ∧
      (((h.planPressed config code extended now).2.keyboard.pressedKeys = h.keyboard.pressedKeys ∧
          Typing.injected (h.planPressed config code extended now).1 = [] ∧
          h.repeats (.pressed code extended, now) = none) ∨
        ∃ keycode,
          (h.planPressed config code extended now).2.keyboard.pressedKeys =
            insert keycode h.keyboard.pressedKeys ∧
          Typing.injected (h.planPressed config code extended now).1 =
            [.keycode keycode true] ∧
          h.repeats (.pressed code extended, now) =
            if keycode ∈ h.keyboard.pressedKeys then some (.keycode keycode) else none) := by
  obtain ⟨hpaste, hsettled⟩ := flushed_settled config hbuffer
  obtain ⟨-, hkeyboard⟩ := flushed_eq config h
  rw [planPressed]
  dsimp only
  rw [hkeyboard, hpaste]
  cases hcode : ScancodeMapper.translateScancode h.keyboard.layout code.toUInt16.toUInt32 extended
    false with
  | error e =>
    rw [KeyboardHandler.handleKeyDown_error hcode]
    exact ⟨hsettled, .inl ⟨by rw [hkeyboard], rfl, repeats_error now hcode⟩⟩
  | ok keycode =>
    have hrepeats := repeats_ok now hcode
    obtain ⟨hsoon, hresult⟩ | ⟨hlate, hdown, hresult⟩ | ⟨hup, hresult⟩ :=
      KeyboardHandler.handleKeyDown_ok now hcode
    · rw [hsoon, if_neg fun hlate => Bool.noConfusion hlate.2] at hrepeats
      rw [hresult]
      exact ⟨hsettled, .inl ⟨rfl, rfl, hrepeats⟩⟩
    · rw [if_pos ⟨hdown, hlate⟩] at hrepeats
      rw [hresult]
      exact ⟨hsettled, .inr ⟨keycode, rfl, rfl, hrepeats.trans (if_pos hdown).symm⟩⟩
    · rw [if_neg fun hboth => hup hboth.1] at hrepeats
      rw [hresult]
      exact ⟨hsettled, .inr ⟨keycode, rfl, rfl, hrepeats.trans (if_neg hup).symm⟩⟩

/-- A key that goes up was kept, and is injected; or nothing happens. -/
theorem planReleased_injected (code : UInt8) (extended : Bool) (now : Instant) :
    (h.planReleased code extended now).2.cjkBuffer = h.cjkBuffer ∧
      (((h.planReleased code extended now).2.keyboard.pressedKeys = h.keyboard.pressedKeys ∧
          Typing.injected (h.planReleased code extended now).1 = []) ∨
        ∃ keycode ∈ h.keyboard.pressedKeys,
          (h.planReleased code extended now).2.keyboard.pressedKeys =
            h.keyboard.pressedKeys.erase keycode ∧
          Typing.injected (h.planReleased code extended now).1 = [.keycode keycode false]) := by
  rw [planReleased]
  cases hup : h.keyboard.handleKeyUp code.toUInt16 extended false now with
  | error e => exact ⟨rfl, .inl ⟨rfl, rfl⟩⟩
  | ok result =>
    obtain ⟨event, keyboard⟩ := result
    obtain ⟨keycode, ⟨rfl, rfl⟩ | ⟨rfl, hdown, rfl⟩⟩ := KeyboardHandler.handleKeyUp_cases hup
    · exact ⟨rfl, .inl ⟨rfl, rfl⟩⟩
    · exact ⟨rfl, .inr ⟨keycode, hdown, rfl, rfl⟩⟩

/-- A character is pasted if there is a clipboard, and the buffer is empty afterwards. -/
theorem pasteChar_injected (c : Char) :
    (h.pasteChar config c).2.cjkBuffer.Settled ∧
      (h.pasteChar config c).1 = config.hasClipboardProvider := by
  refine ⟨CjkPasteBuffer.Settled.new, ?_⟩
  have htext : (h.cjkBuffer.buf ++ [c]).isEmpty = false := by
    cases h.cjkBuffer.buf <;> rfl
  rw [pasteChar, flushCjkBuffer, CjkPasteBuffer.takeText, htext]
  rfl

theorem pasteUnicode_injected (hbuffer : h.cjkBuffer.Settled) {unicode : UInt16}
    (hkey : unicodeToEvdev unicode = none) (hpaste : config.cjkPasteEnabled = true) :
    (h.pasteUnicode config unicode).2.cjkBuffer.Settled ∧
      (h.pasteUnicode config unicode).1 = h.pastes config unicode := by
  rw [pastes, hkey, hpaste, pasteUnicode]
  simp only [Option.isNone_none, Bool.true_and]
  split
  · rename_i hhigh
    refine ⟨⟨hbuffer.buf, ?_⟩, (Bool.and_false _).symm⟩
    intro high hsome
    cases hsome
    exact hhigh
  · split
    · cases hpending : h.cjkBuffer.pendingHighSurrogate with
      | none => exact ⟨hbuffer, (Bool.and_false _).symm⟩
      | some high =>
        dsimp only
        rw [if_pos (hbuffer.pending high hpending), Option.isSome_some, Bool.and_true]
        exact pasteChar_injected config _
    · rw [Bool.and_true]
      exact pasteChar_injected config _

/-- Text is pasted, or its keys and symbols go down. -/
theorem planUnicodePressed_injected (hbuffer : h.cjkBuffer.Settled) (unicode : UInt16) :
    (h.planUnicodePressed config unicode).2.cjkBuffer.Settled ∧
      ((h.pastes config unicode = true ∧ typedKeys config unicode = [] ∧
          Typing.injected (h.planUnicodePressed config unicode).1 = pasteInjections) ∨
        (h.pastes config unicode = false ∧
          (Typing.injected (h.planUnicodePressed config unicode).1).Perm
            ((typedKeys config unicode).map (Key.injection · true)))) := by
  rw [planUnicodePressed, typedKeys, textKeys]
  cases hkey : unicodeToEvdev unicode with
  | some key =>
    obtain ⟨keycode, needsShift⟩ := key
    refine ⟨hbuffer, .inr ⟨by rw [pastes, hkey]; rfl, ?_⟩⟩
    cases needsShift with
    | true => exact List.Perm.swap _ _ _
    | false => exact List.Perm.refl _
  | none =>
    dsimp only
    rw [Option.isNone_none, Bool.true_and]
    split
    · rename_i hpaste
      obtain ⟨hsettled, hpastes⟩ := pasteUnicode_injected config hbuffer hkey hpaste
      refine ⟨hsettled, ?_⟩
      rw [← hpastes]
      cases (h.pasteUnicode config unicode).1 with
      | true => exact .inl ⟨rfl, rfl, rfl⟩
      | false => exact .inr ⟨rfl, List.Perm.refl _⟩
    · rename_i hpaste
      have hpastes : h.pastes config unicode = false := by
        rw [pastes, Bool.eq_false_iff.mpr hpaste, Bool.and_false, Bool.false_and, Bool.false_and]
      cases unicodeToKeysym unicode with
      | none => exact ⟨hbuffer, .inr ⟨hpastes, List.Perm.refl _⟩⟩
      | some keysym => exact ⟨hbuffer, .inr ⟨hpastes, List.Perm.refl _⟩⟩

/-- Text goes up as its keys or its symbol. -/
theorem unicodeReleases_eq (unicode : UInt16) :
    unicodeReleases unicode = (textKeys unicode).map (Key.injection · false) := by
  rw [unicodeReleases, textKeys]
  cases unicodeToEvdev unicode with
  | some key =>
    obtain ⟨keycode, needsShift⟩ := key
    cases needsShift <;> rfl
  | none => cases unicodeToKeysym unicode <;> rfl

end Handlers

/-! ### What an event puts down and lets go of -/

/-- A key that goes down and up. -/
def tap (keycode : ℕ) : List Injection := [.keycode keycode true, .keycode keycode false]

theorem count_tap (key : Key) (keycode : ℕ) :
    (tap keycode).count (key.injection true) = (tap keycode).count (key.injection false) := by
  cases key <;> simp [tap, Key.injection, List.count_cons]

theorem count_taps (key : Key) (keycodes : List ℕ) :
    (keycodes.flatMap tap).count (key.injection true) =
      (keycodes.flatMap tap).count (key.injection false) := by
  induction keycodes with
  | nil => rfl
  | cons keycode keycodes ih =>
    rw [List.flatMap_cons, List.count_append, List.count_append, count_tap, ih]

theorem count_pasteInjections (key : Key) :
    pasteInjections.count (key.injection true) = pasteInjections.count (key.injection false) := by
  cases key <;> simp [pasteInjections, Key.injection, List.count_cons, Nat.add_comm]

/-- Of calls that all put down, or all let go, each key counts once on one side. -/
theorem count_map_injection {keys : List Key} (h : keys.Nodup) (key : Key)
    (pressed pressed' : Bool) :
    (keys.map (Key.injection · pressed)).count (key.injection pressed') =
      if key ∈ keys ∧ pressed = pressed' then 1 else 0 := by
  by_cases hsame : pressed = pressed'
  · subst hsame
    rw [List.count_map_of_injective _ _ fun k k' hk => (Key.injection_inj.mp hk).1]
    simp [h.count]
  · rw [if_neg fun hboth => hsame hboth.2, List.count_eq_zero]
    rintro hmem
    obtain ⟨k, -, hk⟩ := List.mem_map.mp hmem
    exact hsame (Key.injection_inj.mp hk).2

theorem count_keycode (key : Key) (keycode : ℕ) (pressed pressed' : Bool) :
    [Injection.keycode keycode pressed].count (key.injection pressed') =
      if key = .keycode keycode ∧ pressed = pressed' then 1 else 0 := by
  have h : [Injection.keycode keycode pressed].count (key.injection pressed') = _ :=
    count_map_injection (List.nodup_singleton (Key.keycode keycode)) key pressed pressed'
  simpa only [List.mem_singleton] using h

/-- No character has Shift for its key. -/
theorem unicodeToEvdev_ne_shift {unicode : UInt16} {keycode : ℕ} {needsShift : Bool}
    (h : unicodeToEvdev unicode = some (keycode, needsShift)) : keycode ≠ KEY_LEFTSHIFT := by
  have hall : ∀ key ∈ unicodeKeys, key.2.1 ≠ KEY_LEFTSHIFT := by decide
  obtain ⟨before, after, hkeys, -⟩ := List.lookup_eq_some_iff.mp h
  exact hall (unicode, keycode, needsShift) (by simp [hkeys])

theorem nodup_textKeys (unicode : UInt16) : (textKeys unicode).Nodup := by
  rw [textKeys]
  cases hkey : unicodeToEvdev unicode with
  | some key =>
    obtain ⟨keycode, needsShift⟩ := key
    have hshift := unicodeToEvdev_ne_shift hkey
    cases needsShift <;> simp [hshift]
  | none => cases unicodeToKeysym unicode <;> simp

theorem nodup_typedKeys (config : InputConfig) (unicode : UInt16) :
    (typedKeys config unicode).Nodup := by
  rw [typedKeys]
  split
  · exact List.nodup_nil
  · exact nodup_textKeys unicode

namespace Handlers

variable (config : InputConfig) {h : Handlers}

/-- The client holds the key. -/
def holds (h : Handlers) : Key → Bool
  | .keycode code => code ∈ h.keyboard.pressedKeys
  | .keysym _ => false

theorem holds_congr {h' : Handlers} (key : Key)
    (hpressed : h'.keyboard.pressedKeys = h.keyboard.pressedKeys) : h'.holds key = h.holds key := by
  cases key with
  | keycode code => rw [holds, holds, hpressed]
  | keysym symbol => rfl

theorem holds_of_insert {h' : Handlers} {key : Key} {keycode : ℕ}
    (hpressed : h'.keyboard.pressedKeys = insert keycode h.keyboard.pressedKeys)
    (hkey : key ≠ .keycode keycode) : h'.holds key = h.holds key := by
  cases key with
  | keycode code =>
    have hne : code ≠ keycode := fun heq => hkey (congrArg _ heq)
    simp [holds, hpressed, hne]
  | keysym symbol => rfl

theorem holds_of_erase {h' : Handlers} {key : Key} {keycode : ℕ}
    (hpressed : h'.keyboard.pressedKeys = h.keyboard.pressedKeys.erase keycode)
    (hkey : key ≠ .keycode keycode) : h'.holds key = h.holds key := by
  cases key with
  | keycode code =>
    have hne : code ≠ keycode := fun heq => hkey (congrArg _ heq)
    simp [holds, hpressed, hne]
  | keysym symbol => rfl

/-- **What one event puts down and lets go of**, key for key: more goes down than comes up by the
keys of text and the repeats, less the keys of text that is let go of, and by what the client holds
more than before. -/
theorem injected_count (hbuffer : h.cjkBuffer.Settled) (event : IronKeyboardEvent × Instant)
    (key : Key) :
    (Typing.injected (h.planKeyboard config event.1 event.2).1).count (key.injection true) +
        [event].countP (·.1.untypes key) + (h.holds key).toNat =
      (Typing.injected (h.planKeyboard config event.1 event.2).1).count (key.injection false) +
        [event].countP (·.1.types config key) + (h.repeats event).toList.count key +
        ((h.planKeyboard config event.1 event.2).2.holds key).toNat := by
  obtain ⟨event, now⟩ := event
  rw [List.countP_singleton, List.countP_singleton]
  cases event with
  | pressed code extended =>
    obtain ⟨-, ⟨hpressed, hinjected, hrepeats⟩ | ⟨keycode, hpressed, hinjected, hrepeats⟩⟩ :=
      planPressed_injected config hbuffer code extended now
    · simp only [planKeyboard, IronKeyboardEvent.types, IronKeyboardEvent.untypes]
      rw [hinjected, hrepeats, holds_congr key hpressed]
      rfl
    · simp only [planKeyboard, IronKeyboardEvent.types, IronKeyboardEvent.untypes]
      rw [hinjected, hrepeats]
      by_cases hkey : key = .keycode keycode
      · subst hkey
        by_cases hdown : keycode ∈ h.keyboard.pressedKeys <;>
          simp [holds, hpressed, Key.injection, hdown]
      · rw [holds_of_insert hpressed hkey]
        by_cases hdown : keycode ∈ h.keyboard.pressedKeys <;>
          simp [count_keycode, hkey, Ne.symm hkey, hdown]
  | released code extended =>
    obtain ⟨-, ⟨hpressed, hinjected⟩ | ⟨keycode, hdown, hpressed, hinjected⟩⟩ :=
      planReleased_injected (h := h) code extended now
    · simp only [planKeyboard, IronKeyboardEvent.types, IronKeyboardEvent.untypes]
      rw [hinjected, holds_congr key hpressed]
      rfl
    · simp only [planKeyboard, IronKeyboardEvent.types, IronKeyboardEvent.untypes]
      rw [hinjected]
      by_cases hkey : key = .keycode keycode
      · subst hkey
        simp [holds, hpressed, Key.injection, hdown, repeats]
      · rw [holds_of_erase hpressed hkey]
        simp [count_keycode, hkey, repeats]
  | unicodePressed unicode =>
    have hkeyboard : (h.planUnicodePressed config unicode).2.keyboard = h.keyboard :=
      (planUnicodePressed_spec config h unicode).2
    simp only [planKeyboard, IronKeyboardEvent.types, IronKeyboardEvent.untypes]
    rw [holds_congr key (congrArg KeyboardHandler.pressedKeys hkeyboard)]
    obtain ⟨-, ⟨-, htyped, hinjected⟩ | ⟨-, hinjected⟩⟩ :=
      planUnicodePressed_injected config hbuffer unicode
    · rw [hinjected, count_pasteInjections]
      simp [htyped, repeats]
    · rw [hinjected.count_eq, hinjected.count_eq, count_map_injection (nodup_typedKeys ..),
        count_map_injection (nodup_typedKeys ..)]
      simp [repeats]
  | unicodeReleased unicode =>
    have hinjected : Typing.injected (h.planKeyboard config (.unicodeReleased unicode) now).1 =
        (textKeys unicode).map (Key.injection · false) := unicodeReleases_eq unicode
    rw [hinjected, count_map_injection (nodup_textKeys unicode),
      count_map_injection (nodup_textKeys unicode)]
    simp [IronKeyboardEvent.types, IronKeyboardEvent.untypes, repeats, planKeyboard]
  | synchronize capsLock numLock scrollLock =>
    have hinjected : Typing.injected
        (h.planKeyboard config (.synchronize capsLock numLock scrollLock) now).1 =
          (h.keyboard.synchronizeLocks capsLock numLock scrollLock).1.flatMap tap := rfl
    rw [hinjected, count_taps]
    rfl

end Handlers

/-! ### What the compositor makes of it -/

/-- Calls that only put down are matched, and leave down what was. -/
theorem exec_presses {b : KeyState} {injections : List Injection}
    (h : ∀ i ∈ injections, ∃ key, i = Key.injection key true) :
    keyMachine.Along KeyState.Matched b injections ∧
      b.down ⊆ (keyMachine.exec b injections).down := by
  induction injections generalizing b with
  | nil => exact ⟨trivial, Finset.Subset.refl _⟩
  | cons i injections ih =>
    obtain ⟨key, rfl⟩ := h i (List.mem_cons_self ..)
    obtain ⟨hmatched, hdown⟩ := ih (b := b.receive (key.injection true))
      fun j hj => h j (List.mem_cons_of_mem _ hj)
    refine ⟨⟨b.matched_true key, hmatched⟩, fun k hk => hdown ?_⟩
    rw [b.receive_true]
    exact Finset.mem_insert_of_mem hk

/-- Calls that let go of each key once are matched if each has a press. -/
theorem exec_releases {b : KeyState} {keys : List Key} (hnodup : keys.Nodup) :
    (keyMachine.Along KeyState.Matched b (keys.map (Key.injection · false)) ↔
        ∀ key ∈ keys, key ∈ b.unmatched) ∧
      ∀ key, key ∈ (keyMachine.exec b (keys.map (Key.injection · false))).down ↔
        key ∈ b.down ∧ key ∉ keys := by
  induction keys generalizing b with
  | nil => exact ⟨iff_of_true trivial nofun, fun key => (and_iff_left List.not_mem_nil).symm⟩
  | cons k keys ih =>
    obtain ⟨hnot, hnodup⟩ := List.nodup_cons.mp hnodup
    obtain ⟨hmatched, hdown⟩ := ih (b := b.release k) hnodup
    rw [List.map_cons, Machine.along_cons, Machine.exec_cons]
    show (b.Matched (k.injection false) ∧
      keyMachine.Along KeyState.Matched (b.receive (k.injection false)) _ ↔ _) ∧
      ∀ key, key ∈ (keyMachine.exec (b.receive (k.injection false)) _).down ↔ _
    rw [b.matched_false, b.receive_false, hmatched, List.forall_mem_cons]
    refine ⟨and_congr_right fun _ => forall₂_congr fun key hkey => ?_, fun key => ?_⟩
    · exact Multiset.mem_erase_of_ne fun heq => hnot (heq ▸ hkey)
    · rw [hdown, List.mem_cons, not_or, ← and_assoc, and_comm (a := key ∈ b.down)]
      exact and_congr_left fun _ => Finset.mem_erase

/-- Keys that go down and up are matched, and are up. -/
theorem exec_taps (b : KeyState) (keycodes : List ℕ) :
    keyMachine.Along KeyState.Matched b (keycodes.flatMap tap) ∧
      ∀ key, key ∈ (keyMachine.exec b (keycodes.flatMap tap)).down ↔
        key ∈ b.down ∧ ∀ keycode ∈ keycodes, key ≠ .keycode keycode := by
  induction keycodes generalizing b with
  | nil => exact ⟨trivial, fun key => (and_iff_left nofun).symm⟩
  | cons keycode keycodes ih =>
    obtain ⟨hmatched, hdown⟩ := ih ((b.press (.keycode keycode)).release (.keycode keycode))
    refine ⟨⟨trivial, Multiset.mem_cons_self _ _, hmatched⟩, fun key => ?_⟩
    rw [List.forall_mem_cons, ← and_assoc]
    refine (hdown key).trans (and_congr_left fun _ => ?_)
    show key ∈ (insert _ b.down).erase _ ↔ _
    rw [Finset.mem_erase, Finset.mem_insert, and_comm]
    exact and_congr_left fun hne => or_iff_right hne

/-- A paste is matched, and leaves Ctrl and V up. -/
theorem exec_pasteInjections (b : KeyState) :
    keyMachine.Along KeyState.Matched b pasteInjections ∧
      ∀ key, key ∈ (keyMachine.exec b pasteInjections).down ↔
        key ∈ b.down ∧ key ≠ .keycode KEY_LEFTCTRL ∧ key ≠ .keycode 47 := by
  have hpressed : .keycode 47 ∈ ((b.press (.keycode 29)).press (.keycode 47)).unmatched :=
    Multiset.mem_cons_self _ _
  have hfirst : .keycode 29 ∈
      (((b.press (.keycode 29)).press (.keycode 47)).release (.keycode 47)).unmatched :=
    (Multiset.mem_erase_of_ne (by decide)).mpr
      (Multiset.mem_cons_of_mem (Multiset.mem_cons_self _ _))
  refine ⟨⟨trivial, trivial, hpressed, hfirst, trivial⟩, fun key => ?_⟩
  show key ∈ ((insert (.keycode 47) (insert (.keycode 29) b.down)).erase (.keycode 47)).erase
    (.keycode 29) ↔ _
  simp only [Finset.mem_erase, Finset.mem_insert, KEY_LEFTCTRL]
  tauto

end Input

end Cheirizo
