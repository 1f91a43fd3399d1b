import Cheirizo.Input.KeyState

/-!
# The compositor follows the client

The client lets go of keys it holds, of text, and never of anything that pastes and locks put down.
Of the calls that come of it two things are asked: a release has a press that no other release has
taken back, and what the handler keeps as down is down at the compositor.

## Counting

Pastes and locks put down as often as they let go of, and the client lets go only of what it holds.
What is left is text. A release of text has its press exactly if fewer releases of text came before
it than presses of text and repeats, key for key: the books of a run (`Accounts`) say so. This is
`ReleasesPreceded`, a condition on the events, up to the presses that are repeats. With the paste on
a symbol never goes down, and any release of one is a release too many.

## Two ways to be down

A key is down in one sense while one of its presses is unmatched; of what the client holds this
comes for nothing. In the other sense it is down if the last call about it was a press. Then no
event may let go of a key that the client holds, which is `Undisturbed`: not the Ctrl and V of a
paste, not text with the same key, not a lock.

## Main definitions

* `FollowsClient` — what is asked of a run, for either sense
* `ReleasesPreceded`, `Undisturbed` — the conditions
* `Accounts` — the books of a run

## Main results

* `followsClient_held_iff` — every run, counted
* `always_down_iff` — every run, by the last word
* `follows_client_iff` — both
-/

namespace Cheirizo

namespace Input

/-! ### What is asked -/

namespace Typing

/-- Every key that is kept as down has a press that is unmatched. -/
def Held (s : Typing) : Prop :=
  ∀ keycode ∈ s.handlers.keyboard.pressedKeys, .keycode keycode ∈ s.backend.unmatched

/-- Every key that is kept as down went down last. -/
def Down (s : Typing) : Prop :=
  ∀ keycode ∈ s.handlers.keyboard.pressedKeys, .keycode keycode ∈ s.backend.down

theorem Down.held {s : Typing} (h : s.Down) : s.Held :=
  fun keycode hpressed => s.backend.down_unmatched _ (h keycode hpressed)

end Typing

/-- No release is without a press, and after every event what is kept as down is down, in the
sense given. -/
def FollowsClient (config : InputConfig) (IsDown : Typing → Prop) (s : Typing)
    (es : List (IronKeyboardEvent × Instant)) : Prop :=
  keyMachine.Along KeyState.Matched s.backend ((typingMachine config).trace s es) ∧
    (typingMachine config).Always IsDown s es

/-! ### The conditions -/

/-- Of each key of the text, fewer releases of text came before than presses of text and
repeats. -/
def Preceded (config : InputConfig) (layout : String) (past : List (IronKeyboardEvent × Instant))
    (unicode : UInt16) : Prop :=
  ∀ key ∈ textKeys unicode,
    past.countP (·.1.untypes key) <
      past.countP (·.1.types config key) +
        ((handlersMachine config).trace (.new layout) past).count key

/-- Every release of text has a press of text or a repeat to take back. -/
def ReleasesPreceded (config : InputConfig) (layout : String)
    (es : List (IronKeyboardEvent × Instant)) : Prop :=
  ∀ past unicode now, past ++ [(.unicodeReleased unicode, now)] <+: es →
    Preceded config layout past unicode

/-- The event lets go of no key that the client holds. -/
def Undisturbed (config : InputConfig) (h : Handlers) : IronKeyboardEvent × Instant → Prop
  | (.pressed _ _, _) => True
  | (.released _ _, _) => True
  | (.unicodePressed unicode, _) =>
    h.pastes config unicode = true →
      KEY_LEFTCTRL ∉ h.keyboard.pressedKeys ∧ 47 ∉ h.keyboard.pressedKeys
  | (.unicodeReleased unicode, _) =>
    ∀ keycode ∈ h.keyboard.pressedKeys, .keycode keycode ∉ textKeys unicode
  | (.synchronize capsLock numLock scrollLock, _) =>
    (h.keyboard.modifiers.capsLock ≠ capsLock → KEY_CAPSLOCK ∉ h.keyboard.pressedKeys) ∧
    (h.keyboard.modifiers.numLock ≠ numLock → KEY_NUMLOCK ∉ h.keyboard.pressedKeys) ∧
    (h.keyboard.modifiers.scrollLock ≠ scrollLock → KEY_SCROLLLOCK ∉ h.keyboard.pressedKeys)

/-! ### One event -/

/-- What is asked of one event. -/
def Good (config : InputConfig) (s : Typing) (event : IronKeyboardEvent × Instant) : Prop :=
  keyMachine.Along KeyState.Matched s.backend (s.step config event).2 ∧
    (s.step config event).1.Held

namespace Typing

/-- A key that is held has a press that is unmatched. -/
theorem held_iff {s : Typing} :
    s.Held ↔ ∀ key, (s.handlers.holds key).toNat ≤ s.backend.unmatched.count key := by
  constructor
  · intro h key
    cases hkey : s.handlers.holds key with
    | false => exact Nat.zero_le _
    | true =>
      cases key with
      | keycode code => exact Multiset.count_pos.mpr (h code (of_decide_eq_true hkey))
      | keysym symbol => cases hkey
  · intro h keycode hpressed
    have hholds : s.handlers.holds (.keycode keycode) = true := decide_eq_true hpressed
    have hcount := h (.keycode keycode)
    rw [hholds] at hcount
    exact Multiset.count_pos.mp hcount

end Typing

section Event

variable (config : InputConfig) {s : Typing} (hbuffer : s.handlers.cjkBuffer.Settled)
include hbuffer

/-- The buffer is settled after every event. -/
theorem buffer_settled (event : IronKeyboardEvent × Instant) :
    (s.step config event).1.handlers.cjkBuffer.Settled := by
  obtain ⟨event, now⟩ := event
  cases event with
  | pressed code extended =>
    exact (Handlers.planPressed_injected config hbuffer code extended now).1
  | released code extended =>
    have hsame : (s.step config (.released code extended, now)).1.handlers.cjkBuffer =
        s.handlers.cjkBuffer := (Handlers.planReleased_injected code extended now).1
    rw [hsame]
    exact hbuffer
  | unicodePressed unicode =>
    exact (Handlers.planUnicodePressed_injected config hbuffer unicode).1
  | unicodeReleased unicode => exact hbuffer
  | synchronize capsLock numLock scrollLock => exact hbuffer

/-- The presses left unmatched by one event. -/
theorem step_count {event : IronKeyboardEvent × Instant}
    (hmatched : keyMachine.Along KeyState.Matched s.backend (s.step config event).2) (key : Key) :
    (s.step config event).1.backend.unmatched.count key + [event].countP (·.1.untypes key) +
        (s.handlers.holds key).toNat =
      s.backend.unmatched.count key + [event].countP (·.1.types config key) +
        (s.handlers.repeats event).toList.count key +
        ((s.step config event).1.handlers.holds key).toNat := by
  have hexec : (s.step config event).1.backend.unmatched.count key +
      (s.step config event).2.count (key.injection false) =
        s.backend.unmatched.count key + (s.step config event).2.count (key.injection true) :=
    count_exec hmatched key
  have hinjected : (s.step config event).2.count (key.injection true) +
      [event].countP (·.1.untypes key) + (s.handlers.holds key).toNat =
        (s.step config event).2.count (key.injection false) +
          [event].countP (·.1.types config key) + (s.handlers.repeats event).toList.count key +
          ((s.step config event).1.handlers.holds key).toNat :=
    Handlers.injected_count config hbuffer event key
  omega

/-- Only a release of text can be without a press. -/
theorem matched_of_untypes (hheld : s.Held) {event : IronKeyboardEvent × Instant}
    (htext : ∀ key, event.1.untypes key = false) :
    keyMachine.Along KeyState.Matched s.backend (s.step config event).2 := by
  obtain ⟨event, now⟩ := event
  cases event with
  | pressed code extended =>
    show keyMachine.Along KeyState.Matched s.backend
      (Typing.injected (s.handlers.planPressed config code extended now).1)
    obtain ⟨-, ⟨-, hinjected, -⟩ | ⟨keycode, -, hinjected, -⟩⟩ :=
      Handlers.planPressed_injected config hbuffer code extended now
    · rw [hinjected]
      trivial
    · rw [hinjected]
      exact ⟨trivial, trivial⟩
  | released code extended =>
    show keyMachine.Along KeyState.Matched s.backend
      (Typing.injected (s.handlers.planReleased code extended now).1)
    obtain ⟨-, ⟨-, hinjected⟩ | ⟨keycode, hdown, -, hinjected⟩⟩ :=
      Handlers.planReleased_injected (h := s.handlers) code extended now
    · rw [hinjected]
      trivial
    · rw [hinjected]
      exact ⟨hheld keycode hdown, trivial⟩
  | unicodePressed unicode =>
    show keyMachine.Along KeyState.Matched s.backend
      (Typing.injected (s.handlers.planUnicodePressed config unicode).1)
    obtain ⟨-, ⟨-, -, hinjected⟩ | ⟨-, hpresses⟩⟩ :=
      Handlers.planUnicodePressed_injected config hbuffer unicode
    · rw [hinjected]
      exact (exec_pasteInjections s.backend).1
    · refine (exec_presses fun i hi => ?_).1
      obtain ⟨key, -, hkey⟩ := List.mem_map.mp (hpresses.mem_iff.mp hi)
      exact ⟨key, hkey.symm⟩
  | unicodeReleased unicode =>
    show keyMachine.Along KeyState.Matched s.backend (Handlers.unicodeReleases unicode)
    rw [Handlers.unicodeReleases_eq]
    refine (exec_releases (nodup_textKeys unicode)).1.mpr fun key hkey => ?_
    exact absurd (decide_eq_true hkey) (Bool.eq_false_iff.mp (htext key))
  | synchronize capsLock numLock scrollLock =>
    exact (exec_taps s.backend
      (s.handlers.keyboard.synchronizeLocks capsLock numLock scrollLock).1).1

end Event

section Counted

variable (config : InputConfig) {s : Typing} (hbuffer : s.handlers.cjkBuffer.Settled)
  (hheld : s.Held)
include hbuffer hheld

/-- An event that is not a release of text does what is asked. -/
theorem good_of_untypes {event : IronKeyboardEvent × Instant}
    (htext : ∀ key, event.1.untypes key = false) : Good config s event := by
  have hmatched := matched_of_untypes config hbuffer hheld htext
  refine ⟨hmatched, Typing.held_iff.mpr fun key => ?_⟩
  have hcount := step_count config hbuffer hmatched key
  have hbefore := Typing.held_iff.mp hheld key
  rw [List.countP_singleton, htext key] at hcount
  simp only [Bool.false_eq_true, if_false] at hcount
  omega

/-- A release of text does what is asked, if each of its keys has a press more than the client
holds. -/
theorem good_unicodeReleased_iff (unicode : UInt16) (now : Instant) :
    Good config s (.unicodeReleased unicode, now) ↔
      ∀ key ∈ textKeys unicode,
        (s.handlers.holds key).toNat < s.backend.unmatched.count key := by
  have hmatched_iff : keyMachine.Along KeyState.Matched s.backend
      (s.step config (.unicodeReleased unicode, now)).2 ↔
        ∀ key ∈ textKeys unicode, key ∈ s.backend.unmatched := by
    show keyMachine.Along KeyState.Matched s.backend (Handlers.unicodeReleases unicode) ↔ _
    rw [Handlers.unicodeReleases_eq]
    exact (exec_releases (nodup_textKeys unicode)).1
  -- once its releases are matched, the event takes back one press of each of its keys
  have hcount : keyMachine.Along KeyState.Matched s.backend
      (s.step config (.unicodeReleased unicode, now)).2 → ∀ key,
        (s.step config (.unicodeReleased unicode, now)).1.backend.unmatched.count key +
          (if key ∈ textKeys unicode then 1 else 0) = s.backend.unmatched.count key := by
    intro hmatched key
    have hstep := step_count config hbuffer hmatched key
    rw [List.countP_singleton, List.countP_singleton] at hstep
    simp only [IronKeyboardEvent.untypes, decide_eq_true_eq] at hstep
    exact Nat.add_right_cancel hstep
  constructor
  · rintro ⟨hmatched, hafter⟩ key hkey
    have hstep := hcount hmatched key
    rw [if_pos hkey] at hstep
    have hleft : (s.handlers.holds key).toNat ≤
        (s.step config (.unicodeReleased unicode, now)).1.backend.unmatched.count key :=
      Typing.held_iff.mp hafter key
    omega
  · intro hmore
    have hmatched := hmatched_iff.mpr fun key hkey =>
      Multiset.count_pos.mp (Nat.zero_lt_of_lt (hmore key hkey))
    refine ⟨hmatched, Typing.held_iff.mpr fun key => ?_⟩
    have hstep := hcount hmatched key
    show (s.handlers.holds key).toNat ≤ _
    by_cases hkey : key ∈ textKeys unicode
    · rw [if_pos hkey] at hstep
      have hone := hmore key hkey
      omega
    · rw [if_neg hkey] at hstep
      have hone := Typing.held_iff.mp hheld key
      omega

end Counted

/-! ### The books -/

/-- What a run leaves: each key has an unmatched press for every press of text and every repeat,
less the releases of text, and one more if the client holds it. -/
structure Accounts (config : InputConfig) (layout : String)
    (past : List (IronKeyboardEvent × Instant)) (s : Typing) : Prop where
  handlers : s.handlers = (handlersMachine config).exec (.new layout) past
  buffer : s.handlers.cjkBuffer.Settled
  held : s.Held
  count : ∀ key, s.backend.unmatched.count key + past.countP (·.1.untypes key) =
    past.countP (·.1.types config key) +
      ((handlersMachine config).trace (.new layout) past).count key + (s.handlers.holds key).toNat

namespace Accounts

variable {config : InputConfig} {layout : String} {past : List (IronKeyboardEvent × Instant)}
  {s : Typing}

theorem start : Accounts config layout [] (.start layout) where
  handlers := rfl
  buffer := CjkPasteBuffer.Settled.new
  held keycode hpressed := absurd hpressed (Finset.notMem_empty keycode)
  count key := by cases key <;> rfl

theorem step (h : Accounts config layout past s) {event : IronKeyboardEvent × Instant}
    (hgood : Good config s event) :
    Accounts config layout (past ++ [event]) (s.step config event).1 where
  handlers := by
    rw [Machine.exec_append, ← h.handlers]
    rfl
  buffer := buffer_settled config h.buffer event
  held := hgood.2
  count key := by
    have hstep := step_count config h.buffer hgood.1 key
    have hbefore := h.count key
    have hrepeats : (handlersMachine config).trace s.handlers [event] =
        (s.handlers.repeats event).toList := List.append_nil _
    rw [List.countP_append, List.countP_append, Machine.trace_append, ← h.handlers, hrepeats,
      List.count_append]
    omega

/-- By the books, a release of text does what is asked exactly if it is preceded. -/
theorem good_iff (h : Accounts config layout past s) (event : IronKeyboardEvent × Instant) :
    Good config s event ↔ ∀ unicode now, event = (.unicodeReleased unicode, now) →
      Preceded config layout past unicode := by
  obtain ⟨event, now⟩ := event
  cases event with
  | unicodeReleased unicode =>
    rw [good_unicodeReleased_iff config h.buffer h.held]
    have hbooks : (∀ key ∈ textKeys unicode,
        (s.handlers.holds key).toNat < s.backend.unmatched.count key) ↔
          Preceded config layout past unicode := by
      refine forall₂_congr fun key _ => ?_
      have hcount := h.count key
      omega
    rw [hbooks]
    constructor
    · rintro hpreceded unicode now ⟨⟩
      exact hpreceded
    · exact fun hall => hall unicode now rfl
  | pressed code extended =>
    exact iff_of_true (good_of_untypes config h.buffer h.held fun _ => rfl) nofun
  | released code extended =>
    exact iff_of_true (good_of_untypes config h.buffer h.held fun _ => rfl) nofun
  | unicodePressed unicode =>
    exact iff_of_true (good_of_untypes config h.buffer h.held fun _ => rfl) nofun
  | synchronize capsLock numLock scrollLock =>
    exact iff_of_true (good_of_untypes config h.buffer h.held fun _ => rfl) nofun

/-- The books are kept along every run that does what is asked. -/
theorem of_along {es : List (IronKeyboardEvent × Instant)}
    (h : (typingMachine config).Along (Good config) (.start layout) es) :
    Accounts config layout es ((typingMachine config).exec (.start layout) es) := by
  induction es using List.reverseRecOn with
  | nil => exact start
  | append_singleton es event ih =>
    obtain ⟨hbefore, hgood, -⟩ := (Machine.along_append ..).mp h
    rw [Machine.exec_append]
    exact (ih hbefore).step hgood

end Accounts

/-! ### Runs -/

/-- What is asked of a run is asked of its events. -/
theorem followsClient_iff_good {config : InputConfig} {s : Typing} (hs : s.Held)
    (es : List (IronKeyboardEvent × Instant)) :
    FollowsClient config Typing.Held s es ↔ (typingMachine config).Along (Good config) s es := by
  induction es generalizing s with
  | nil => exact iff_of_true ⟨trivial, hs⟩ trivial
  | cons e es ih =>
    rw [FollowsClient, Machine.trace_cons, Machine.along_append, Machine.always_cons,
      Machine.along_cons]
    constructor
    · rintro ⟨⟨hmatched, hrest⟩, -, halways⟩
      have hnext : ((typingMachine config).step s e).1.Held := halways.head
      exact ⟨⟨hmatched, hnext⟩, (ih hnext).mp ⟨hrest, halways⟩⟩
    · rintro ⟨⟨hmatched, hnext⟩, hrest⟩
      obtain ⟨htrace, halways⟩ := (ih hnext).mpr hrest
      exact ⟨⟨hmatched, htrace⟩, hs, halways⟩

theorem releasesPreceded_concat {config : InputConfig} {layout : String}
    {es : List (IronKeyboardEvent × Instant)} {event : IronKeyboardEvent × Instant} :
    ReleasesPreceded config layout (es ++ [event]) ↔
      ReleasesPreceded config layout es ∧ ∀ unicode now, event = (.unicodeReleased unicode, now) →
        Preceded config layout es unicode := by
  constructor
  · intro h
    refine ⟨fun past unicode now hpast => ?_, fun unicode now hlast => ?_⟩
    · exact h past unicode now (hpast.trans (List.prefix_append ..))
    · exact h es unicode now (hlast ▸ List.prefix_rfl)
  · rintro ⟨hbefore, hlast⟩ past unicode now hpast
    obtain heq | hshort := List.prefix_concat_iff.mp hpast
    · obtain ⟨rfl, hevent⟩ := List.append_inj' heq rfl
      exact hlast unicode now (List.singleton_inj.mp hevent).symm
    · exact hbefore past unicode now hshort

/-- Counted, every run is as it should be exactly if its releases of text are preceded. -/
theorem followsClient_held_iff (config : InputConfig) (layout : String)
    (es : List (IronKeyboardEvent × Instant)) :
    FollowsClient config Typing.Held (.start layout) es ↔ ReleasesPreceded config layout es := by
  rw [followsClient_iff_good (Accounts.start : Accounts config layout [] _).held]
  induction es using List.reverseRecOn with
  | nil =>
    refine iff_of_true trivial fun past unicode now hpast => ?_
    exact absurd (List.prefix_nil.mp hpast) (by simp)
  | append_singleton es event ih =>
    rw [Machine.along_append, releasesPreceded_concat, ih]
    refine and_congr_right fun hbefore => ?_
    exact (and_iff_left trivial).trans ((Accounts.of_along (ih.mpr hbefore)).good_iff event)

/-! ### The last word -/

/-- The keys of the locks that differ. -/
theorem mem_synchronizeLocks {k : KeyboardHandler} {capsLock numLock scrollLock : Bool}
    {keycode : ℕ} :
    keycode ∈ (k.synchronizeLocks capsLock numLock scrollLock).1 ↔
      (k.modifiers.capsLock ≠ capsLock ∧ keycode = KEY_CAPSLOCK) ∨
      (k.modifiers.numLock ≠ numLock ∧ keycode = KEY_NUMLOCK) ∨
      (k.modifiers.scrollLock ≠ scrollLock ∧ keycode = KEY_SCROLLLOCK) := by
  simp only [KeyboardHandler.synchronizeLocks, List.mem_append, List.mem_ite_nil_right,
    List.mem_singleton, or_assoc]

/-- What is kept as down went down last, in terms of the injections of the event and the keys kept
after it. -/
theorem down_iff (config : InputConfig) (s : Typing) (event : IronKeyboardEvent) (now : Instant)
    {injections : List Injection} {pressed : Finset ℕ}
    (hinjected : Typing.injected (s.handlers.planKeyboard config event now).1 = injections)
    (hpressed : (s.handlers.planKeyboard config event now).2.keyboard.pressedKeys = pressed) :
    (s.step config (event, now)).1.Down ↔
      ∀ keycode ∈ pressed, .keycode keycode ∈ (keyMachine.exec s.backend injections).down := by
  subst hinjected hpressed
  exact Iff.rfl

section LastWord

variable (config : InputConfig) {s : Typing} (hdown : s.Down) (now : Instant)
include hdown

/-- Calls that let go of some keys leave down what is held, if none of these keys is. -/
theorem down_iff_of_exec {injections : List Injection} {Up : Key → Prop}
    (hexec : ∀ key, key ∈ (keyMachine.exec s.backend injections).down ↔
      key ∈ s.backend.down ∧ ¬ Up key) :
    (∀ keycode ∈ s.handlers.keyboard.pressedKeys,
        .keycode keycode ∈ (keyMachine.exec s.backend injections).down) ↔
      ∀ keycode ∈ s.handlers.keyboard.pressedKeys, ¬ Up (.keycode keycode) :=
  forall₂_congr fun keycode hpressed =>
    (hexec _).trans (and_iff_right (hdown keycode hpressed))

theorem down_pressed (hbuffer : s.handlers.cjkBuffer.Settled) (code : UInt8) (extended : Bool) :
    (s.step config (.pressed code extended, now)).1.Down := by
  obtain ⟨-, ⟨hpressed, hinjected, -⟩ | ⟨keycode, hpressed, hinjected, -⟩⟩ :=
    Handlers.planPressed_injected config hbuffer code extended now
  · rw [down_iff config s (.pressed code extended) now hinjected hpressed]
    exact hdown
  · rw [down_iff config s (.pressed code extended) now hinjected hpressed]
    intro key hkey
    obtain rfl | hkey := Finset.mem_insert.mp hkey
    · exact Finset.mem_insert_self _ _
    · exact Finset.mem_insert_of_mem (hdown key hkey)

theorem down_released (code : UInt8) (extended : Bool) :
    (s.step config (.released code extended, now)).1.Down := by
  obtain ⟨-, ⟨hpressed, hinjected⟩ | ⟨keycode, -, hpressed, hinjected⟩⟩ :=
    Handlers.planReleased_injected (h := s.handlers) code extended now
  · rw [down_iff config s (.released code extended) now hinjected hpressed]
    exact hdown
  · rw [down_iff config s (.released code extended) now hinjected hpressed]
    intro key hkey
    obtain ⟨hne, hkey⟩ := Finset.mem_erase.mp hkey
    exact Finset.mem_erase.mpr ⟨fun heq => hne (Key.keycode.inj heq), hdown key hkey⟩

/-- Text that goes down is harmless, unless it is pasted while the client holds Ctrl or V. -/
theorem down_unicodePressed_iff (hbuffer : s.handlers.cjkBuffer.Settled) (unicode : UInt16) :
    (s.step config (.unicodePressed unicode, now)).1.Down ↔
      Undisturbed config s.handlers (.unicodePressed unicode, now) := by
  have hkeyboard : (s.handlers.planKeyboard config (.unicodePressed unicode) now).2.keyboard =
      s.handlers.keyboard := (Handlers.planUnicodePressed_spec config s.handlers unicode).2
  have hpressed := congrArg KeyboardHandler.pressedKeys hkeyboard
  rw [Undisturbed]
  obtain ⟨-, ⟨hpastes, -, hinjected⟩ | ⟨hpastes, hpresses⟩⟩ :=
    Handlers.planUnicodePressed_injected config hbuffer unicode
  · rw [down_iff config s (.unicodePressed unicode) now hinjected hpressed, hpastes]
    have hexec := (exec_pasteInjections s.backend).2
    simp only [← not_or] at hexec
    rw [down_iff_of_exec hdown hexec]
    constructor
    · intro hfree _
      exact ⟨fun hctrl => hfree _ hctrl (.inl rfl), fun hv => hfree _ hv (.inr rfl)⟩
    · rintro hfree keycode hpressed (hctrl | hv)
      · cases hctrl
        exact (hfree rfl).1 hpressed
      · cases hv
        exact (hfree rfl).2 hpressed
  · rw [down_iff config s (.unicodePressed unicode) now rfl hpressed, hpastes]
    refine iff_of_true (fun keycode hkey => ?_) fun hfalse => absurd hfalse Bool.false_ne_true
    refine (exec_presses fun i hi => ?_).2 (hdown keycode hkey)
    obtain ⟨key, -, hinjection⟩ := List.mem_map.mp (hpresses.mem_iff.mp hi)
    exact ⟨key, hinjection.symm⟩

/-- Text that is let go of is harmless, unless the client holds one of its keys. -/
theorem down_unicodeReleased_iff (unicode : UInt16) :
    (s.step config (.unicodeReleased unicode, now)).1.Down ↔
      Undisturbed config s.handlers (.unicodeReleased unicode, now) := by
  rw [down_iff config s (.unicodeReleased unicode) now (Handlers.unicodeReleases_eq unicode) rfl]
  exact down_iff_of_exec hdown (exec_releases (nodup_textKeys unicode)).2

/-- A lock is harmless, unless the client holds its key. -/
theorem down_synchronize_iff (capsLock numLock scrollLock : Bool) :
    (s.step config (.synchronize capsLock numLock scrollLock, now)).1.Down ↔
      Undisturbed config s.handlers (.synchronize capsLock numLock scrollLock, now) := by
  have hexec := (exec_taps s.backend
    (s.handlers.keyboard.synchronizeLocks capsLock numLock scrollLock).1).2
  have hup : ∀ key : Key,
      (∀ keycode ∈ (s.handlers.keyboard.synchronizeLocks capsLock numLock scrollLock).1,
        key ≠ .keycode keycode) ↔
      ¬ ∃ keycode ∈ (s.handlers.keyboard.synchronizeLocks capsLock numLock scrollLock).1,
        key = .keycode keycode := fun key => by
        simp only [not_exists, not_and, ne_eq]
  simp only [hup] at hexec
  rw [down_iff config s (.synchronize capsLock numLock scrollLock) now rfl rfl, Undisturbed]
  refine (down_iff_of_exec hdown hexec).trans ?_
  simp only [Key.keycode.injEq, exists_eq_right', mem_synchronizeLocks]
  constructor
  · intro hfree
    exact ⟨fun hne hkey => hfree _ hkey (.inl ⟨hne, rfl⟩),
      fun hne hkey => hfree _ hkey (.inr (.inl ⟨hne, rfl⟩)),
      fun hne hkey => hfree _ hkey (.inr (.inr ⟨hne, rfl⟩))⟩
  · rintro ⟨hcaps, hnum, hscroll⟩ keycode hkey (⟨hne, rfl⟩ | ⟨hne, rfl⟩ | ⟨hne, rfl⟩)
    · exact hcaps hne hkey
    · exact hnum hne hkey
    · exact hscroll hne hkey

/-- What the client holds is down after an event, exactly if the event lets go of none of it. -/
theorem down_iff_undisturbed (hbuffer : s.handlers.cjkBuffer.Settled)
    (event : IronKeyboardEvent × Instant) :
    (s.step config event).1.Down ↔ Undisturbed config s.handlers event := by
  obtain ⟨event, now⟩ := event
  cases event with
  | pressed code extended =>
    exact iff_of_true (down_pressed config hdown now hbuffer code extended) trivial
  | released code extended =>
    exact iff_of_true (down_released config hdown now code extended) trivial
  | unicodePressed unicode => exact down_unicodePressed_iff config hdown now hbuffer unicode
  | unicodeReleased unicode => exact down_unicodeReleased_iff config hdown now unicode
  | synchronize capsLock numLock scrollLock =>
    exact down_synchronize_iff config hdown now capsLock numLock scrollLock

end LastWord

/-- What the client holds is down throughout a run, exactly if no event lets go of any of it. -/
theorem always_down_iff (config : InputConfig) (layout : String)
    (es : List (IronKeyboardEvent × Instant)) :
    (typingMachine config).Always Typing.Down (.start layout) es ↔
      (handlersMachine config).Along (Undisturbed config) (.new layout) es := by
  have hstart : (Typing.start layout).Down ∧ (Typing.start layout).handlers.cjkBuffer.Settled :=
    ⟨fun keycode hpressed => absurd hpressed (Finset.notMem_empty keycode),
      CjkPasteBuffer.Settled.new⟩
  refine (Machine.always_iff_along (I := fun s : Typing => s.Down ∧ s.handlers.cjkBuffer.Settled)
    (C := fun s => Undisturbed config s.handlers) ?_ (fun s hs => hs.1) ?_ hstart).trans ?_
  · intro s event hs hundisturbed
    exact ⟨(down_iff_undisturbed config hs.1 hs.2 event).mpr hundisturbed,
      buffer_settled config hs.2 event⟩
  · intro s event hs hdisturbed hdown
    exact hdisturbed ((down_iff_undisturbed config hs.1 hs.2 event).mp hdown)
  · exact Machine.along_map (fun _ _ => rfl) _ es

/-! ### Both senses -/

/-- **The compositor follows the client**: if a key is down while one of its presses is unmatched,
exactly if every release of text is preceded by a press of text or a repeat of its own; if a key is
down that went down last, exactly if besides no event lets go of a key that the client holds. -/
theorem follows_client_iff (config : InputConfig) (layout : String)
    (es : List (IronKeyboardEvent × Instant)) :
    (FollowsClient config Typing.Held (.start layout) es ↔ ReleasesPreceded config layout es) ∧
      (FollowsClient config Typing.Down (.start layout) es ↔
        ReleasesPreceded config layout es ∧
          (handlersMachine config).Along (Undisturbed config) (.new layout) es) := by
  have hheld := followsClient_held_iff config layout es
  refine ⟨hheld, ?_⟩
  rw [← hheld, ← always_down_iff, FollowsClient, FollowsClient, and_assoc]
  refine and_congr_right fun _ => ⟨fun hdown => ⟨?_, hdown⟩, And.right⟩
  exact hdown.mono fun _ => Typing.Down.held

/-- A character that was pasted is let go of as a symbol that never went down. -/
theorem pasted_character_released :
    ¬ FollowsClient ⟨true, true⟩ Typing.Held (.start "us")
        [(.unicodePressed 0x4E2D, 0), (.unicodeReleased 0x4E2D, 0)] ∧
      ¬ FollowsClient ⟨true, true⟩ Typing.Down (.start "us")
        [(.unicodePressed 0x4E2D, 0), (.unicodeReleased 0x4E2D, 0)] := by
  have hunmatched : ¬ keyMachine.Along KeyState.Matched .empty
      ((typingMachine ⟨true, true⟩).trace (.start "us")
        [(.unicodePressed 0x4E2D, 0), (.unicodeReleased 0x4E2D, 0)]) := by
    decide
  exact ⟨fun h => hunmatched h.1, fun h => hunmatched h.1⟩

end Input

end Cheirizo
