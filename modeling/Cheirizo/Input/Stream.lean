import Cheirizo.Input.Handler
import Cheirizo.Lib.Machine
import Mathlib.Computability.RegularExpressions
import Mathlib.Data.List.Chain

/-!
# The stream of key and button events

What `KeyboardHandler` and `MouseHandler` emit over a whole connection. The client may send keys and
buttons in any order, press what is down and release what is up, and the clock may stand where it
likes; what is emitted for one key or one button is nevertheless a sequence of presses.

## The pattern of a key

The events of a key are words over down, repeat and up. A complete history is in
`(down repeat* up)*`; while the key is down its last press is still open. `Orderly` says which of
the two it is by the keys that are down, and carries the alignment of the handler's four
collections.

## Main results

* `key_stream_orderly` — patterns, modifiers, collections and buttons after every run
* `key_stream_open_press` — a key that is still down has no complete history
-/

namespace Cheirizo

namespace Input

namespace KeyboardHandler

variable {k : KeyboardHandler} {keycode : ℕ} {now : Instant}

/-! ### The collections stay aligned -/

/-- The modifiers say which of their keys are down. -/
structure ModifiersAligned (m : KeyModifiers) (pressed : Finset ℕ) : Prop where
  shift : m.shift = (decide (KEY_LEFTSHIFT ∈ pressed) || decide (KEY_RIGHTSHIFT ∈ pressed))
  ctrl : m.ctrl = (decide (KEY_LEFTCTRL ∈ pressed) || decide (KEY_RIGHTCTRL ∈ pressed))
  alt : m.alt = (decide (KEY_LEFTALT ∈ pressed) || decide (KEY_RIGHTALT ∈ pressed))
  metaKey : m.metaKey = (decide (KEY_LEFTMETA ∈ pressed) || decide (KEY_RIGHTMETA ∈ pressed))

/-- The modifiers, the repeating keys and the recorded times all follow the keys that are down. -/
structure Aligned (k : KeyboardHandler) : Prop where
  modifiers : ModifiersAligned k.modifiers k.pressedKeys
  repeating : k.repeatingKeys ⊆ k.pressedKeys
  times : ∀ keycode, (k.lastKeyTimes keycode).isSome ↔ keycode ∈ k.pressedKeys

/-- Nothing is down at first. -/
theorem aligned_new (layout : String) : (new layout).Aligned where
  modifiers := ⟨rfl, rfl, rfl, rfl⟩
  repeating := Finset.Subset.refl _
  times keycode := by simp [new]

/-- Once the set of keys has changed by one key, updating the modifiers for that key aligns
them again. -/
theorem modifiersAligned_updateModifiers (pressed : Finset ℕ) (down : Bool)
    (h : ModifiersAligned k.modifiers pressed)
    (hk : k.pressedKeys = if down then insert keycode pressed else pressed.erase keycode) :
    ModifiersAligned (k.updateModifiers keycode down) k.pressedKeys := by
  obtain ⟨hshift, hctrl, halt, hmeta⟩ := h
  -- a pair of keys this event is not about
  have hsame : ∀ {flag : Bool} (left right : ℕ),
      flag = (decide (left ∈ pressed) || decide (right ∈ pressed)) →
      left ≠ keycode → right ≠ keycode →
      flag = (decide (left ∈ k.pressedKeys) || decide (right ∈ k.pressedKeys)) := by
    intro flag left right hflag hleft hright
    rw [hflag, hk]
    cases down <;> simp [hleft, hright]
  -- the pair it is about
  have hown : ∀ left right : ℕ, keycode = left ∨ keycode = right →
      (down || decide (left ∈ k.pressedKeys) || decide (right ∈ k.pressedKeys)) =
        (decide (left ∈ k.pressedKeys) || decide (right ∈ k.pressedKeys)) := by
    intro left right hpair
    rw [hk]
    rcases hpair with rfl | rfl <;> cases down <;> simp
  rw [updateModifiers]
  dsimp only
  split_ifs
  all_goals
    simp only [KEY_LEFTSHIFT, KEY_RIGHTSHIFT, KEY_LEFTCTRL, KEY_RIGHTCTRL, KEY_LEFTALT,
      KEY_RIGHTALT, KEY_LEFTMETA, KEY_RIGHTMETA, KEY_CAPSLOCK, KEY_NUMLOCK, KEY_SCROLLLOCK] at *
    refine ⟨?_, ?_, ?_, ?_⟩
    · first
        | exact hown 42 54 ‹_›
        | exact hsame 42 54 hshift (by omega) (by omega)
    · first
        | exact hown 29 97 ‹_›
        | exact hsame 29 97 hctrl (by omega) (by omega)
    · first
        | exact hown 56 100 ‹_›
        | exact hsame 56 100 halt (by omega) (by omega)
    · first
        | exact hown 125 126 ‹_›
        | exact hsame 125 126 hmeta (by omega) (by omega)

/-- A press enters all four collections. -/
theorem Aligned.afterPress (h : k.Aligned) : (k.afterPress keycode now).Aligned where
  modifiers := modifiersAligned_updateModifiers k.pressedKeys true h.modifiers rfl
  repeating := by
    intro c hc
    rw [KeyboardHandler.afterPress] at hc ⊢
    dsimp only at hc ⊢
    split at hc
    · rcases Finset.mem_insert.mp hc with rfl | hc
      · exact Finset.mem_insert_self _ _
      · exact Finset.mem_insert_of_mem (h.repeating hc)
    · exact Finset.mem_insert_of_mem (h.repeating hc)
  times c := by
    rw [KeyboardHandler.afterPress]
    by_cases hc : c = keycode
    · subst hc
      simp
    · simp [hc, h.times c]

/-- A release leaves all four. -/
theorem Aligned.afterRelease (h : k.Aligned) : (k.afterRelease keycode).Aligned where
  modifiers := modifiersAligned_updateModifiers k.pressedKeys false h.modifiers rfl
  repeating := by
    intro c hc
    rw [KeyboardHandler.afterRelease] at hc ⊢
    exact Finset.erase_subset_erase keycode h.repeating hc
  times c := by
    rw [KeyboardHandler.afterRelease]
    by_cases hc : c = keycode
    · subst hc
      simp
    · simp [hc, h.times c]

/-- Locks are in none of them. -/
theorem Aligned.synchronizeLocks (h : k.Aligned) (capsLock numLock scrollLock : Bool) :
    (k.synchronizeLocks capsLock numLock scrollLock).2.Aligned where
  modifiers := ⟨h.modifiers.shift, h.modifiers.ctrl, h.modifiers.alt, h.modifiers.metaKey⟩
  repeating := h.repeating
  times := h.times

end KeyboardHandler

/-! ### Words of key events -/

/-- What is said of one key. -/
inductive KeyEdge where
  | down
  | repeated
  | up
  deriving DecidableEq, Repr

namespace KeyEdge

open RegularExpression (char)

/-- `(down repeat* up)*` -/
def presses : RegularExpression KeyEdge := (char down * (char repeated).star * char up).star

/-- `(down repeat* up)* down repeat*` -/
def openPress : RegularExpression KeyEdge := presses * (char down * (char repeated).star)

theorem nil_mem_presses : [] ∈ presses.matches' := Language.nil_mem_kstar _

open Computability in
/-- One more complete word. -/
theorem append_mem_kstar {l : Language KeyEdge} {u v : List KeyEdge} (hu : u ∈ l∗) (hv : v ∈ l) :
    u ++ v ∈ l∗ := by
  have hle : l∗ * l ≤ l∗ := kstar_mul_le_kstar
  exact hle (Language.append_mem_mul hu hv)

/-- A key that is up can go down. -/
theorem down_mem_openPress {w : List KeyEdge} (h : w ∈ presses.matches') :
    w ++ [down] ∈ openPress.matches' := by
  refine Language.append_mem_mul h ?_
  exact Language.mem_mul.mpr ⟨[down], rfl, [], Language.nil_mem_kstar _, rfl⟩

/-- A key that is down can repeat. -/
theorem repeated_mem_openPress {w : List KeyEdge} (h : w ∈ openPress.matches') :
    w ++ [repeated] ∈ openPress.matches' := by
  obtain ⟨u, hu, v, hv, rfl⟩ := Language.mem_mul.mp h
  obtain ⟨d, hd, r, hr, rfl⟩ := Language.mem_mul.mp hv
  refine Language.mem_mul.mpr ⟨u, hu, d ++ (r ++ [repeated]), ?_, by simp⟩
  refine Language.mem_mul.mpr ⟨d, hd, r ++ [repeated], ?_, rfl⟩
  exact append_mem_kstar hr rfl

/-- A key that is down can go up. -/
theorem up_mem_presses {w : List KeyEdge} (h : w ∈ openPress.matches') :
    w ++ [up] ∈ presses.matches' := by
  obtain ⟨u, hu, v, hv, rfl⟩ := Language.mem_mul.mp h
  rw [List.append_assoc]
  exact append_mem_kstar hu (Language.append_mem_mul hv rfl)

end KeyEdge

/-! ### The devices -/

/-- A key or button event of the client. -/
inductive DeviceEvent where
  | keyDown (scancode : UInt16) (extended e1Prefix : Bool)
  | keyUp (scancode : UInt16) (extended e1Prefix : Bool)
  | synchronizeLocks (capsLock numLock scrollLock : Bool)
  | button (button : MouseButton) (pressed : Bool)
  deriving DecidableEq, Repr

/-- A keyboard event that was returned, or a button transition that was accepted. -/
inductive Emission where
  | key (event : KeyboardEvent)
  | button (button : MouseButton) (pressed : Bool)
  deriving DecidableEq, Repr

/-- The handlers of keyboard and mouse. -/
structure Devices where
  keyboard : KeyboardHandler
  mouse : MouseHandler

namespace Devices

/-- Nothing is pressed. -/
def new (layout : String) : Devices := ⟨.new layout, .new⟩

/-- A key event: an unknown scancode changes and emits nothing. -/
def keyed (d : Devices) : Except InputError (KeyboardEvent × KeyboardHandler) →
    Devices × List Emission
  | .ok (event, keyboard) => ({ d with keyboard }, [.key event])
  | .error _ => (d, [])

/-- An event, and what is emitted for it. -/
def step (d : Devices) (e : DeviceEvent × Instant) : Devices × List Emission :=
  match e.1 with
  | .keyDown scancode extended e1Prefix =>
    d.keyed (d.keyboard.handleKeyDown scancode extended e1Prefix e.2)
  | .keyUp scancode extended e1Prefix =>
    d.keyed (d.keyboard.handleKeyUp scancode extended e1Prefix e.2)
  | .synchronizeLocks capsLock numLock scrollLock =>
    ({ d with keyboard := (d.keyboard.synchronizeLocks capsLock numLock scrollLock).2 }, [])
  | .button button pressed =>
    let accepted := d.mouse.acceptButtonTransition button pressed e.2
    ({ d with mouse := accepted.2 }, if accepted.1 then [.button button pressed] else [])

end Devices

/-- The handlers, with their emissions as outputs. -/
def deviceMachine : Machine Devices (DeviceEvent × Instant) Emission where
  step := Devices.step

/-- What an emitted event says about a key. -/
def KeyboardEvent.edge (keycode : ℕ) : KeyboardEvent → Option KeyEdge
  | .ignored _ => none
  | .keyDown k _ _ _ => if k = keycode then some .down else none
  | .keyRepeat k _ _ _ => if k = keycode then some .repeated else none
  | .keyUp k _ _ _ => if k = keycode then some .up else none

namespace Emission

/-- What an emission says of one key. -/
def edge (keycode : ℕ) : Emission → Option KeyEdge
  | .key event => event.edge keycode
  | .button _ _ => none

/-- What an emission says of one button. -/
def transition (button : MouseButton) : Emission → Option Bool
  | .key _ => none
  | .button b pressed => if b = button then some pressed else none

end Emission

/-- The events emitted for a key. -/
def keyWord (keycode : ℕ) (out : List Emission) : List KeyEdge :=
  out.filterMap (Emission.edge keycode)

/-- The accepted transitions of a button: `true` is a press. -/
def buttonWord (button : MouseButton) (out : List Emission) : List Bool :=
  out.filterMap (Emission.transition button)

/-- The word of a key is read off the emissions in order. -/
theorem keyWord_append (keycode : ℕ) (out out' : List Emission) :
    keyWord keycode (out ++ out') = keyWord keycode out ++ keyWord keycode out' :=
  List.filterMap_append ..

/-- So is the word of a button. -/
theorem buttonWord_append (button : MouseButton) (out out' : List Emission) :
    buttonWord button (out ++ out') = buttonWord button out ++ buttonWord button out' :=
  List.filterMap_append ..

/-! ### Keys -/

/-- Every key's events are presses, the last one open exactly while the key is down. -/
def KeysOrderly (out : List Emission) (pressed : Finset ℕ) : Prop :=
  ∀ keycode, keyWord keycode out ∈
    (if keycode ∈ pressed then KeyEdge.openPress else KeyEdge.presses).matches'

/-- Emissions that are about no key change no word. -/
theorem KeysOrderly.silent {out out' : List Emission} {pressed : Finset ℕ}
    (h : KeysOrderly out pressed) (hout : ∀ keycode, keyWord keycode out' = []) :
    KeysOrderly (out ++ out') pressed := by
  intro keycode
  rw [keyWord_append, hout, List.append_nil]
  exact h keycode

/-- An event of one key, which leaves the others as they are. -/
theorem KeysOrderly.concat {out : List Emission} {pressed pressed' : Finset ℕ} {keycode : ℕ}
    {event : KeyboardEvent} {edge : KeyEdge} (h : KeysOrderly out pressed)
    (hedge : ∀ c, event.edge c = if keycode = c then some edge else none)
    (hother : ∀ c, keycode ≠ c → (c ∈ pressed' ↔ c ∈ pressed))
    (hself : keyWord keycode out ++ [edge] ∈
      (if keycode ∈ pressed' then KeyEdge.openPress else KeyEdge.presses).matches') :
    KeysOrderly (out ++ [.key event]) pressed' := by
  intro c
  have hword : ∀ c, Emission.edge c (.key event) = if keycode = c then some edge else none := hedge
  rw [keyWord_append]
  by_cases hc : keycode = c
  · subst hc
    rw [show keyWord keycode [.key event] = [edge] by simp [keyWord, hword]]
    exact hself
  · rw [show keyWord c [.key event] = [] by simp [keyWord, hword, hc], List.append_nil]
    simp only [hother c hc]
    exact h c

variable {k : KeyboardHandler} {keycode : ℕ} {out : List Emission}

/-- A key that was up goes down: its last press is open. -/
theorem KeysOrderly.down (h : KeysOrderly out k.pressedKeys) (hup : keycode ∉ k.pressedKeys)
    (scancode : UInt16) (modifiers : KeyModifiers) (now : Instant) :
    KeysOrderly (out ++ [.key (.keyDown keycode scancode modifiers now)])
      (k.afterPress keycode now).pressedKeys := by
  refine h.concat (fun c => rfl) (fun c hc => KeyboardHandler.mem_afterPress.trans ?_) ?_
  · exact or_iff_right (Ne.symm hc)
  · rw [if_pos (KeyboardHandler.mem_afterPress.mpr (.inl rfl))]
    have hself := h keycode
    rw [if_neg hup] at hself
    exact KeyEdge.down_mem_openPress hself

/-- A key that is down repeats: its last press stays open. -/
theorem KeysOrderly.repeated (h : KeysOrderly out k.pressedKeys) (hdown : keycode ∈ k.pressedKeys)
    (scancode : UInt16) (modifiers : KeyModifiers) (now : Instant) :
    KeysOrderly (out ++ [.key (.keyRepeat keycode scancode modifiers now)])
      (k.afterPress keycode now).pressedKeys := by
  refine h.concat (fun c => rfl) (fun c hc => KeyboardHandler.mem_afterPress.trans ?_) ?_
  · exact or_iff_right (Ne.symm hc)
  · rw [if_pos (KeyboardHandler.mem_afterPress.mpr (.inl rfl))]
    have hself := h keycode
    rw [if_pos hdown] at hself
    exact KeyEdge.repeated_mem_openPress hself

/-- A key that was down goes up: its history is complete. -/
theorem KeysOrderly.up (h : KeysOrderly out k.pressedKeys) (hdown : keycode ∈ k.pressedKeys)
    (scancode : UInt16) (modifiers : KeyModifiers) (now : Instant) :
    KeysOrderly (out ++ [.key (.keyUp keycode scancode modifiers now)])
      (k.afterRelease keycode).pressedKeys := by
  refine h.concat (fun c => rfl) (fun c hc => KeyboardHandler.mem_afterRelease.trans ?_) ?_
  · exact and_iff_right (Ne.symm hc)
  · rw [if_neg fun hself => (KeyboardHandler.mem_afterRelease.mp hself).1 rfl]
    have hself := h keycode
    rw [if_pos hdown] at hself
    exact KeyEdge.up_mem_presses hself

/-! ### Buttons -/

/-- A button is changed, or nothing is. -/
theorem MouseHandler.acceptButtonTransition_cases (m : MouseHandler) (button : MouseButton)
    (pressed : Bool) (now : Instant) :
    m.acceptButtonTransition button pressed now = (false, m) ∨
      (m.buttonStates button ≠ pressed ∧
        (m.acceptButtonTransition button pressed now).1 = true ∧
        (m.acceptButtonTransition button pressed now).2.buttonStates =
          Function.update m.buttonStates button pressed) := by
  rw [acceptButtonTransition]
  split
  · exact Or.inl rfl
  · rename_i hstate
    split
    · exact Or.inl rfl
    · exact Or.inr ⟨hstate, rfl, rfl⟩

/-- Every button's transitions alternate, as if a release came before the first of them, and the
last one is the button's state. -/
def ButtonsOrderly (out : List Emission) (states : MouseButton → Bool) : Prop :=
  ∀ button, (false :: buttonWord button out).IsChain (· ≠ ·) ∧
    (false :: buttonWord button out).getLast? = some (states button)

theorem ButtonsOrderly.silent {out out' : List Emission} {states : MouseButton → Bool}
    (h : ButtonsOrderly out states) (hout : ∀ button, buttonWord button out' = []) :
    ButtonsOrderly (out ++ out') states := by
  intro button
  rw [buttonWord_append, hout, List.append_nil]
  exact h button

/-- The words of buttons alternate. -/
theorem ButtonsOrderly.concat {out : List Emission} {states : MouseButton → Bool}
    {button : MouseButton} {pressed : Bool} (h : ButtonsOrderly out states)
    (hchange : states button ≠ pressed) :
    ButtonsOrderly (out ++ [.button button pressed]) (Function.update states button pressed) := by
  intro b
  obtain ⟨hchain, hlast⟩ := h b
  rw [buttonWord_append]
  by_cases hb : button = b
  · subst hb
    rw [show buttonWord button [.button button pressed] = [pressed] by
      simp [buttonWord, Emission.transition], ← List.cons_append]
    constructor
    · refine List.isChain_append.mpr ⟨hchain, List.isChain_singleton _, ?_⟩
      intro x hx y hy
      rw [hlast, Option.mem_some_iff] at hx
      rw [List.head?_cons, Option.mem_some_iff] at hy
      rw [← hx, ← hy]
      exact hchange
    · rw [List.getLast?_concat, Function.update_self]
  · rw [show buttonWord b [.button button pressed] = [] by
      simp [buttonWord, Emission.transition, hb], List.append_nil,
      Function.update_of_ne (Ne.symm hb)]
    exact ⟨hchain, hlast⟩

/-! ### Runs -/

/-- What was emitted fits what the devices keep. -/
structure Orderly (out : List Emission) (d : Devices) : Prop where
  aligned : d.keyboard.Aligned
  keys : KeysOrderly out d.keyboard.pressedKeys
  buttons : ButtonsOrderly out d.mouse.buttonStates

theorem orderly_new (layout : String) : Orderly [] (Devices.new layout) where
  aligned := KeyboardHandler.aligned_new layout
  keys _ := KeyEdge.nil_mem_presses
  buttons _ := ⟨List.isChain_singleton _, rfl⟩

variable {d : Devices}

/-- A key of the client goes down or repeats. -/
theorem Orderly.keyDown (h : Orderly out d) (scancode : UInt16) (extended e1Prefix : Bool)
    (now : Instant) :
    Orderly (out ++ (d.keyed (d.keyboard.handleKeyDown scancode extended e1Prefix now)).2)
      (d.keyed (d.keyboard.handleKeyDown scancode extended e1Prefix now)).1 := by
  cases hdown : d.keyboard.handleKeyDown scancode extended e1Prefix now with
  | error e =>
    rw [Devices.keyed, List.append_nil]
    exact h
  | ok result =>
    obtain ⟨event, keyboard⟩ := result
    obtain ⟨keycode, ⟨rfl, rfl⟩ | ⟨rfl, ⟨hpressed, rfl⟩ | ⟨hpressed, rfl⟩⟩⟩ :=
      KeyboardHandler.handleKeyDown_cases hdown
    · exact ⟨h.aligned, h.keys.silent fun _ => rfl, h.buttons.silent fun _ => rfl⟩
    · exact ⟨h.aligned.afterPress, h.keys.repeated hpressed _ _ _, h.buttons.silent fun _ => rfl⟩
    · exact ⟨h.aligned.afterPress, h.keys.down hpressed _ _ _, h.buttons.silent fun _ => rfl⟩

/-- A key of the client goes up, if it was down. -/
theorem Orderly.keyUp (h : Orderly out d) (scancode : UInt16) (extended e1Prefix : Bool)
    (now : Instant) :
    Orderly (out ++ (d.keyed (d.keyboard.handleKeyUp scancode extended e1Prefix now)).2)
      (d.keyed (d.keyboard.handleKeyUp scancode extended e1Prefix now)).1 := by
  cases hup : d.keyboard.handleKeyUp scancode extended e1Prefix now with
  | error e =>
    rw [Devices.keyed, List.append_nil]
    exact h
  | ok result =>
    obtain ⟨event, keyboard⟩ := result
    obtain ⟨keycode, ⟨rfl, rfl⟩ | ⟨rfl, hpressed, rfl⟩⟩ := KeyboardHandler.handleKeyUp_cases hup
    · exact ⟨h.aligned, h.keys.silent fun _ => rfl, h.buttons.silent fun _ => rfl⟩
    · exact ⟨h.aligned.afterRelease, h.keys.up hpressed _ _ _, h.buttons.silent fun _ => rfl⟩

/-- A button changes, if it does. -/
theorem Orderly.button (h : Orderly out d) (button : MouseButton) (pressed : Bool)
    (now : Instant) :
    Orderly (out ++ (d.step (.button button pressed, now)).2)
      (d.step (.button button pressed, now)).1 := by
  rw [Devices.step]
  dsimp only
  obtain hsame | ⟨hchange, haccepted, hstates⟩ :=
    d.mouse.acceptButtonTransition_cases button pressed now
  · rw [hsame, if_neg Bool.false_ne_true, List.append_nil]
    exact h
  · rw [haccepted, if_pos rfl]
    refine ⟨h.aligned, h.keys.silent fun _ => rfl, ?_⟩
    dsimp only
    rw [hstates]
    exact h.buttons.concat hchange

/-- One event, whichever it is. -/
theorem Orderly.step (h : Orderly out d) (e : DeviceEvent × Instant) :
    Orderly (out ++ (deviceMachine.step d e).2) (deviceMachine.step d e).1 := by
  obtain ⟨event, now⟩ := e
  cases event with
  | keyDown scancode extended e1Prefix => exact h.keyDown scancode extended e1Prefix now
  | keyUp scancode extended e1Prefix => exact h.keyUp scancode extended e1Prefix now
  | synchronizeLocks capsLock numLock scrollLock =>
    refine ⟨h.aligned.synchronizeLocks capsLock numLock scrollLock, ?_, ?_⟩
    · exact h.keys.silent fun _ => rfl
    · exact h.buttons.silent fun _ => rfl
  | button button pressed => exact h.button button pressed now

/-- By induction on the events. -/
theorem Orderly.exec (h : Orderly out d) (es : List (DeviceEvent × Instant)) :
    Orderly (out ++ deviceMachine.trace d es) (deviceMachine.exec d es) := by
  induction es generalizing out d with
  | nil =>
    rw [Machine.trace, List.append_nil]
    exact h
  | cons e es ih =>
    have hrun := ih (h.step e)
    rwa [List.append_assoc] at hrun

/-- **The stream is orderly.** After every run of key, lock and button events at any times: the
events emitted for a key are presses, each from its down over its repeats to its up, the last one
still open exactly if the key is down; each modifier is on exactly if its left or its right key is
down; only keys that are down repeat, and exactly these have a recorded time; and the accepted
transitions of a button alternate, a press first. -/
theorem key_stream_orderly (layout : String) (es : List (DeviceEvent × Instant)) :
    (∀ keycode, keyWord keycode (deviceMachine.trace (.new layout) es) ∈
      (if keycode ∈ (deviceMachine.exec (.new layout) es).keyboard.pressedKeys
        then KeyEdge.openPress else KeyEdge.presses).matches') ∧
    (deviceMachine.exec (.new layout) es).keyboard.Aligned ∧
    ∀ button,
      (false :: buttonWord button (deviceMachine.trace (.new layout) es)).IsChain (· ≠ ·) := by
  have h := (orderly_new layout).exec es
  exact ⟨h.keys, h.aligned, fun button => (h.buttons button).1⟩

/-- A key that is still down has no complete history: one press of `A` emits its down alone. -/
theorem key_stream_open_press :
    keyWord 30 (deviceMachine.trace (.new "us") [(.keyDown 0x1E false false, 0)]) ∉
      KeyEdge.presses.matches' := by
  rw [show keyWord 30 (deviceMachine.trace (.new "us") [(.keyDown 0x1E false false, 0)]) =
    [.down] by decide, ← RegularExpression.rmatch_iff_matches']
  decide

end Input

end Cheirizo
