import Cheirizo.Lib.Machine
import Cheirizo.Input.Handler

/-!
# The input worker

`server/input_handler.rs`. Events go through a bounded queue to a worker that injects them. An event
that must not be lost and finds the queue full ends the connection; one whose injection fails is
counted, and ends the connection only if it is the thirty-second failure of its kind since anything
last succeeded. By then the state kept for it has changed, and a repeat of the event does nothing.

## Main definitions

* `Worker` — the queue, the handlers and the counters, with what the compositor has seen and what
  could not be delivered to it
* `enqueueInput`, `process` — the two ends of the queue

## Main results

* `releases_kept_iff` — when everything that could not be delivered can still be, or the connection
  is over
-/

namespace Cheirizo

namespace Input

/-- How many events may wait. -/
def INPUT_QUEUE_CAPACITY : ℕ := 4096

/-- So many failures in a row end the connection. -/
def INPUT_FAILURE_THRESHOLD : ℕ := 32

/-- The last of them does. -/
def injectionFailuresAreTerminal (consecutiveFailures : ℕ) : Bool :=
  INPUT_FAILURE_THRESHOLD ≤ consecutiveFailures

/-- Events the queue may lose: all but releases and synchronizations. -/
def inputEventIsDroppable : InputEvent → Bool
  | .keyboard (.released _ _) | .keyboard (.unicodeReleased _) => false
  | .keyboard (.synchronize _ _ _) => false
  | .keyboard _ => true
  | .mouse (.button _ false) => false
  | .mouse _ => true

/-! ### Injecting -/

/-- The answers of the session while an event is handled, and what else the event depends on. -/
structure Attempt where
  circumstances : Circumstances
  pasteResults : ℕ → Bool
  results : ℕ → Bool

/-- Make calls until one fails: those that succeeded, and whether all did. -/
def perform (results : ℕ → Bool) : List Injection → List Injection × Bool
  | [] => ([], true)
  | i :: injections =>
    if results 0 then
      let next := perform (fun n => results (n + 1)) injections
      (i :: next.1, next.2)
    else ([], false)

/-- Ctrl and V, down and up. -/
def pasteInjections : List Injection :=
  [.keycode 29 true, .keycode 47 true, .keycode 47 false, .keycode 29 false]

/-- Of the calls of a paste, those with the given result. -/
def pasted (results : ℕ → Bool) (result : Bool) : List Injection :=
  (pasteInjections.zipIdx.filter fun i => results i.2 = result).map Prod.fst

/-! ### The compositor's side -/

/-- The keys and buttons that the compositor has seen go down for a key or button event, and not go
up since. -/
structure Backend where
  heldKeys : Finset ℕ
  heldButtons : Finset MouseButton

/-- A call the compositor sees. Text and locks are let go of by themselves. -/
def Backend.see (keyEvent : Bool) (b : Backend) : Injection → Backend
  | .keycode keycode true =>
    if keyEvent then { b with heldKeys := insert keycode b.heldKeys } else b
  | .keycode keycode false => { b with heldKeys := b.heldKeys.erase keycode }
  | .button button true => { b with heldButtons := insert button b.heldButtons }
  | .button button false => { b with heldButtons := b.heldButtons.erase button }
  | _ => b

/-- What could not be delivered: a release or synchronization of the client, or a release that is
part of a paste. -/
inductive Undelivered where
  | event (event : InputEvent)
  | paste (injection : Injection)
  deriving DecidableEq

/-! ### The worker -/

/-- The worker, with what it is given and what has come of it. -/
structure Worker where
  config : InputConfig
  handlers : Handlers
  queue : List InputEvent
  terminalOverflow : Bool
  consecutiveMouseErrors : ℕ
  consecutiveKbdErrors : ℕ
  backend : Backend
  undelivered : List Undelivered

/-- An event of the client, or a turn of the worker. -/
inductive WorkerInput where
  | enqueue (event : InputEvent)
  | work (attempt : Attempt)

namespace Worker

/-- Nothing waits, and nothing has failed. -/
def start (config : InputConfig) (layout : String) : Worker :=
  ⟨config, .new layout, [], false, 0, 0, ⟨∅, ∅⟩, []⟩

/-- A full queue is given up for, unless the event does not matter. -/
def enqueueInput (w : Worker) (event : InputEvent) : Worker :=
  if w.terminalOverflow then w
  else if w.queue.length < INPUT_QUEUE_CAPACITY then { w with queue := w.queue ++ [event] }
  else if inputEventIsDroppable event then w
  else { w with terminalOverflow := true }

/-- The calls an event makes besides a paste: those that succeeded, and whether all did. -/
def performed (plan : Plan) (attempt : Attempt) : List Injection × Bool :=
  match plan.injections with
  | .error _ => ([], false)
  | .ok injections => perform attempt.results injections

/-- Whether the last of the calls of an event failed, rather than the event being refused. -/
def callFails (plan : Plan) (attempt : Attempt) : Bool :=
  match plan.injections with
  | .error _ => false
  | .ok injections => !(perform attempt.results injections).2

/-- A key is pressed, by its scancode. -/
def isKeyPress : InputEvent → Bool
  | .keyboard (.pressed _ _) => true
  | _ => false

/-- What the compositor sees of an event. -/
def seen (w : Worker) (event : InputEvent) (plan : Plan) (attempt : Attempt) : Backend :=
  (performed plan attempt).1.foldl (Backend.see (isKeyPress event))
    ((if plan.paste then pasted attempt.pasteResults true else []).foldl (Backend.see false)
      w.backend)

/-- The releases of a paste with the given result. -/
def pasteReleases (plan : Plan) (attempt : Attempt) (result : Bool) : List Undelivered :=
  if plan.paste then
    ((pasted attempt.pasteResults result).filter fun i =>
      i = .keycode 47 false ∨ i = .keycode 29 false).map .paste
  else []

/-- What is not delivered after an event. -/
def missing (w : Worker) (event : InputEvent) (plan : Plan) (attempt : Attempt) :
    List Undelivered :=
  let before := w.undelivered.filter (· ∉ pasteReleases plan attempt true) ++
    pasteReleases plan attempt false
  if (performed plan attempt).2 then
    -- An event that injects nothing delivers nothing.
    if (performed plan attempt).1.isEmpty then before else before.filter (· ≠ .event event)
  else if callFails plan attempt && !inputEventIsDroppable event then .event event :: before
  else before

/-- Handle one event. -/
def process (w : Worker) (event : InputEvent) (attempt : Attempt) : Worker :=
  let planned := w.handlers.plan w.config event attempt.circumstances
  let w := { w with
    handlers := planned.2
    backend := w.seen event planned.1 attempt
    undelivered := w.missing event planned.1 attempt }
  if (performed planned.1 attempt).2 then
    { w with consecutiveMouseErrors := 0, consecutiveKbdErrors := 0 }
  else
    match event with
    | .mouse _ =>
      { w with
        consecutiveMouseErrors := w.consecutiveMouseErrors + 1
        terminalOverflow := injectionFailuresAreTerminal (w.consecutiveMouseErrors + 1) }
    | .keyboard _ =>
      { w with
        consecutiveKbdErrors := w.consecutiveKbdErrors + 1
        terminalOverflow := injectionFailuresAreTerminal (w.consecutiveKbdErrors + 1) }

/-- The worker takes the oldest event. After an overflow it throws all of them away. -/
def step (w : Worker) : WorkerInput → Worker
  | .enqueue event => w.enqueueInput event
  | .work attempt =>
    match w.queue with
    | [] => w
    | event :: queue =>
      if w.terminalOverflow then { w with queue := [] }
      else { w with queue }.process event attempt

end Worker

/-- The worker as a machine. What is delivered is part of its state. -/
def inputMachine : Machine Worker WorkerInput Unit where
  step w input := (w.step input, [])

/-! ### What the compositor holds -/

/-- Every key and button the compositor holds is kept as down. -/
structure Held (b : Backend) (h : Handlers) : Prop where
  keys : b.heldKeys ⊆ h.keyboard.pressedKeys
  buttons : ∀ button ∈ b.heldButtons, h.mouse.buttonStates button = true

theorem mem_of_mem_perform {results : ℕ → Bool} {injections : List Injection} {i : Injection}
    (h : i ∈ (perform results injections).1) : i ∈ injections := by
  induction injections generalizing results with
  | nil => exact h
  | cons j injections ih =>
    rw [perform] at h
    split at h
    · rcases List.mem_cons.mp h with rfl | h
      · exact List.mem_cons_self ..
      · exact List.mem_cons_of_mem _ (ih h)
    · exact absurd h List.not_mem_nil

/-- Calls for text, locks and the pointer put nothing down. -/
theorem Held.untracked {b : Backend} {h : Handlers} (hb : Held b h) {injections : List Injection}
    (hquiet : ∀ button pressed, Injection.button button pressed ∉ injections) :
    Held (injections.foldl (Backend.see false) b) h := by
  induction injections generalizing b with
  | nil => exact hb
  | cons i injections ih =>
    refine ih ?_ fun button pressed hmem => hquiet button pressed (List.mem_cons_of_mem _ hmem)
    cases i with
    | keycode keycode pressed =>
      cases pressed with
      | true => exact hb
      | false => exact ⟨(Finset.erase_subset _ _).trans hb.keys, hb.buttons⟩
    | button button pressed => exact absurd (List.mem_cons_self ..) (hquiet button pressed)
    | keysym keysym pressed => exact hb
    | motionAbsolute => exact hb
    | axis => exact hb

/-- Keys that go down and are kept as down. -/
theorem Held.pressed {b : Backend} {h : Handlers} (hb : Held b h) {injections : List Injection}
    (hkept : ∀ i ∈ injections, ∃ keycode ∈ h.keyboard.pressedKeys, i = .keycode keycode true) :
    Held (injections.foldl (Backend.see true) b) h := by
  induction injections generalizing b with
  | nil => exact hb
  | cons i injections ih =>
    refine ih ?_ fun j hj => hkept j (List.mem_cons_of_mem _ hj)
    obtain ⟨keycode, hmem, rfl⟩ := hkept i (List.mem_cons_self ..)
    exact ⟨Finset.insert_subset hmem hb.keys, hb.buttons⟩

namespace Worker

variable {w : Worker} {event : InputEvent} {attempt : Attempt}

theorem held_pasted {b : Backend} {h : Handlers} (hb : Held b h) (paste : Bool)
    (results : ℕ → Bool) :
    Held ((if paste then pasted results true else []).foldl (Backend.see false) b) h := by
  refine hb.untracked ?_
  intro button pressed hmem
  split at hmem
  · obtain ⟨⟨i, n⟩, hfilter, rfl⟩ := List.mem_map.mp hmem
    have hpaste := (List.mem_filter.mp hfilter).1
    simp [pasteInjections] at hpaste
  · exact absurd hmem List.not_mem_nil

/-- Events after which the handler keeps nothing of what they did. -/
def forgets : InputEvent → Bool
  | .keyboard (.released _ _) | .keyboard (.synchronize _ _ _) | .mouse (.button _ false) => true
  | _ => false

theorem performed_of_ok {plan : Plan} {injections : List Injection}
    (h : plan.injections = .ok injections) (attempt : Attempt) :
    performed plan attempt = perform attempt.results injections ∧
      callFails plan attempt = !(perform attempt.results injections).2 := by
  rw [performed, callFails, h]
  exact ⟨rfl, rfl⟩

theorem mem_of_mem_performed {plan : Plan} {i : Injection} (h : i ∈ (performed plan attempt).1) :
    ∃ injections, plan.injections = .ok injections ∧ i ∈ injections := by
  rw [performed] at h
  split at h
  · exact absurd h List.not_mem_nil
  · rename_i injections hplan
    exact ⟨injections, hplan, mem_of_mem_perform h⟩

/-- A single call is made, or it fails. -/
theorem performed_singleton_cases {plan : Plan} {i : Injection} (h : plan.injections = .ok [i]) :
    (performed plan attempt).1 = [i] ∨
      ((performed plan attempt).1 = [] ∧ callFails plan attempt = true) := by
  obtain ⟨hperformed, hfails⟩ := performed_of_ok h attempt
  rw [hfails, hperformed, perform]
  split
  · exact Or.inl rfl
  · exact Or.inr ⟨rfl, rfl⟩

/-- Only an event that injects something fails to. -/
theorem exists_of_callFails {plan : Plan} (h : callFails plan attempt = true) :
    ∃ injections, plan.injections = .ok injections ∧ injections ≠ [] := by
  rw [callFails] at h
  split at h
  · cases h
  · rename_i injections hplan
    refine ⟨injections, hplan, fun hnil => ?_⟩
    rw [hnil] at h
    cases h

/-- An event other than a key press or a button keeps what is held. -/
theorem held_seen_untracked (hw : Held w.backend w.handlers) {planned : Plan × Handlers}
    (hkey : isKeyPress event = false)
    (hkeyboard : planned.2.keyboard.pressedKeys = w.handlers.keyboard.pressedKeys)
    (hmouse : planned.2.mouse = w.handlers.mouse)
    (hquiet : ∀ injections, planned.1.injections = .ok injections →
      ∀ button pressed, Injection.button button pressed ∉ injections) :
    Held (w.seen event planned.1 attempt) planned.2 := by
  have hnext : Held w.backend planned.2 := by
    refine ⟨?_, ?_⟩
    · rw [hkeyboard]
      exact hw.keys
    · rw [hmouse]
      exact hw.buttons
  rw [seen, hkey]
  refine (held_pasted hnext _ _).untracked ?_
  intro button pressed hmem
  obtain ⟨injections, hplan, hinjections⟩ := mem_of_mem_performed hmem
  exact hquiet injections hplan button pressed hinjections

/-- A key let go where the compositor sees it. -/
theorem held_seen_released (hw : Held w.backend w.handlers) {code : UInt8} {extended : Bool}
    {now : Instant} {keycode : ℕ}
    (hmouse : (w.handlers.planReleased code extended now).2.mouse = w.handlers.mouse)
    (hpressed : (w.handlers.planReleased code extended now).2.keyboard.pressedKeys =
      w.handlers.keyboard.pressedKeys.erase keycode)
    (hdone : (performed (w.handlers.planReleased code extended now).1 attempt).1 =
      [.keycode keycode false]) :
    Held (w.seen (.keyboard (.released code extended))
      (w.handlers.planReleased code extended now).1 attempt)
      (w.handlers.planReleased code extended now).2 := by
  rw [seen, hdone, Handlers.planReleased_paste]
  constructor
  · rw [hpressed]
    exact Finset.erase_subset_erase _ hw.keys
  · rw [hmouse]
    exact hw.buttons

/-- A button that goes down is kept; one that goes up is not, and must be seen to. -/
theorem held_seen_button (hw : Held w.backend w.handlers) {button : MouseButton} {pressed : Bool}
    (hkeyboard : (w.handlers.planMouse (.button button pressed) attempt.circumstances).2.keyboard =
      w.handlers.keyboard)
    (hstates : (w.handlers.planMouse (.button button pressed)
      attempt.circumstances).2.mouse.buttonStates =
        Function.update w.handlers.mouse.buttonStates button pressed)
    (hinjections : (w.handlers.planMouse (.button button pressed)
      attempt.circumstances).1.injections = .ok [.button button pressed])
    (hok : callFails (w.handlers.planMouse (.button button pressed) attempt.circumstances).1
      attempt = true → forgets (.mouse (.button button pressed)) = false) :
    Held (w.seen (.mouse (.button button pressed))
      (w.handlers.planMouse (.button button pressed) attempt.circumstances).1 attempt)
      (w.handlers.planMouse (.button button pressed) attempt.circumstances).2 := by
  have hkeys : w.backend.heldKeys ⊆ (w.handlers.planMouse (.button button pressed)
      attempt.circumstances).2.keyboard.pressedKeys := by
    rw [hkeyboard]
    exact hw.keys
  have hpaste : (w.handlers.planMouse (.button button pressed) attempt.circumstances).1.paste =
      false := rfl
  rw [seen, hpaste]
  cases pressed with
  | true =>
    have hkept : ∀ other ∈ insert button w.backend.heldButtons,
        (w.handlers.planMouse (.button button true)
          attempt.circumstances).2.mouse.buttonStates other = true := by
      intro other hother
      rw [hstates]
      by_cases heq : other = button
      · rw [heq, Function.update_self]
      · rw [Function.update_of_ne heq]
        exact hw.buttons other (Finset.mem_of_mem_insert_of_ne hother heq)
    obtain hdone | ⟨hdone, -⟩ := performed_singleton_cases hinjections
    · rw [hdone]
      exact ⟨hkeys, hkept⟩
    · rw [hdone]
      exact ⟨hkeys, fun other hother => hkept other (Finset.mem_insert_of_mem hother)⟩
  | false =>
    obtain hdone | ⟨-, hfails⟩ := performed_singleton_cases hinjections
    · rw [hdone]
      refine ⟨hkeys, ?_⟩
      intro other hother
      obtain ⟨hne, hheld⟩ := Finset.mem_erase.mp hother
      rw [hstates, Function.update_of_ne hne]
      exact hw.buttons other hheld
    · cases hok hfails

theorem held_keyboard {event : IronKeyboardEvent} (hw : Held w.backend w.handlers)
    (hok : callFails (w.handlers.planKeyboard w.config event attempt.circumstances.now).1 attempt =
      true → forgets (.keyboard event) = false) :
    Held (w.seen (.keyboard event)
      (w.handlers.planKeyboard w.config event attempt.circumstances.now).1 attempt)
      (w.handlers.planKeyboard w.config event attempt.circumstances.now).2 := by
  cases event with
  | pressed code extended =>
    obtain ⟨hmouse, hkeyboard, hkept⟩ := Handlers.planPressed_spec w.config w.handlers code extended
      attempt.circumstances.now
    have hnext : Held w.backend
        (w.handlers.planPressed w.config code extended attempt.circumstances.now).2 := by
      refine ⟨hw.keys.trans hkeyboard, ?_⟩
      rw [hmouse]
      exact hw.buttons
    refine (held_pasted hnext _ _).pressed ?_
    intro i hi
    obtain ⟨injections, hplan, hmem⟩ := mem_of_mem_performed hi
    exact hkept injections hplan i hmem
  | released code extended =>
    obtain ⟨hmouse, ⟨hsame, hnil⟩ | ⟨keycode, hpressed, hinjections, -⟩⟩ :=
      Handlers.planReleased_spec w.handlers code extended attempt.circumstances.now
    · refine held_seen_untracked hw rfl (congrArg (·.keyboard.pressedKeys) hsame) hmouse ?_
      intro injections hplan button pressed hmem
      rw [hnil injections hplan] at hmem
      exact absurd hmem List.not_mem_nil
    · obtain hdone | ⟨-, hfails⟩ := performed_singleton_cases hinjections
      · exact held_seen_released hw hmouse hpressed hdone
      · cases hok hfails
  | unicodePressed unicode =>
    obtain ⟨hmouse, hkeyboard⟩ := Handlers.planUnicodePressed_spec w.config w.handlers unicode
    refine held_seen_untracked hw rfl (congrArg (·.pressedKeys) hkeyboard) hmouse ?_
    intro injections hplan
    exact Handlers.button_notMem_planUnicodePressed w.config w.handlers hplan
  | unicodeReleased unicode =>
    refine held_seen_untracked hw rfl rfl rfl ?_
    intro injections hplan
    cases hplan
    exact Handlers.button_notMem_unicodeReleases unicode
  | synchronize capsLock numLock scrollLock =>
    refine held_seen_untracked hw rfl rfl rfl ?_
    intro injections hplan
    exact Handlers.button_notMem_planSynchronize w.handlers hplan

theorem held_mouse {event : IronMouseEvent} (hw : Held w.backend w.handlers)
    (hok : callFails (w.handlers.planMouse event attempt.circumstances).1 attempt = true →
      forgets (.mouse event) = false) :
    Held (w.seen (.mouse event) (w.handlers.planMouse event attempt.circumstances).1 attempt)
      (w.handlers.planMouse event attempt.circumstances).2 := by
  cases event with
  | button button pressed =>
    obtain ⟨hkeyboard, ⟨hmouse, hnil⟩ | ⟨hstates, hinjections⟩⟩ :=
      Handlers.planButton_spec w.handlers button pressed attempt.circumstances
    · refine held_seen_untracked hw rfl (congrArg (·.pressedKeys) hkeyboard) hmouse ?_
      intro injections hplan button pressed hmem
      cases hnil.symm.trans hplan
      exact absurd hmem List.not_mem_nil
    · exact held_seen_button hw hkeyboard hstates hinjections hok
  | move x y | relMove x y | scroll x y | verticalScroll value =>
    refine held_seen_untracked hw rfl rfl rfl ?_
    intro injections hplan
    exact Handlers.button_notMem_planMouse w.handlers (by simp) hplan

/-- **Nothing held is forgotten** by an event that forgets only what it delivers. -/
theorem held_process (hw : Held w.backend w.handlers)
    (hok : callFails (w.handlers.plan w.config event attempt.circumstances).1 attempt = true →
      forgets event = false) :
    Held (w.seen event (w.handlers.plan w.config event attempt.circumstances).1 attempt)
      (w.handlers.plan w.config event attempt.circumstances).2 := by
  cases event with
  | keyboard event => exact held_keyboard hw hok
  | mouse event => exact held_mouse hw hok

/-! ### What is kept of what could not be delivered -/

/-- A repeat of what could not be delivered would be injected. -/
def remembers (w : Worker) : Undelivered → Bool
  | .event event => decide ((w.handlers.plan w.config event ⟨0, true, true⟩).1.injections ≠ .ok [])
  | .paste _ => false

/-- The connection is over, or what could not be delivered can still be and every key and button the
compositor holds is kept as down. -/
def KeepsReleases (w : Worker) : Prop :=
  w.terminalOverflow = true ∨
    ((∀ u ∈ w.undelivered, w.remembers u = true) ∧ Held w.backend w.handlers)

/-- Failures of the kind of an event since anything last succeeded, with this one. -/
def failures (w : Worker) : InputEvent → ℕ
  | .mouse _ => w.consecutiveMouseErrors + 1
  | .keyboard _ => w.consecutiveKbdErrors + 1

/-- An event either fails and ends the connection, or delivers the releases of its paste and, if it
is forgotten, all that it injects. -/
def Delivers (w : Worker) (event : InputEvent) (attempt : Attempt) : Prop :=
  let plan := (w.handlers.plan w.config event attempt.circumstances).1
  ((performed plan attempt).2 = false ∧
    injectionFailuresAreTerminal (w.failures event) = true) ∨
  ((plan.paste = true → attempt.pasteResults 2 = true ∧ attempt.pasteResults 3 = true) ∧
    (callFails plan attempt = true → forgets event = false))

/-- The event that a step handles, if it handles one, is delivered so. -/
def DeliversReleases (w : Worker) : WorkerInput → Prop
  | .enqueue _ => True
  | .work attempt =>
    ∀ event queue, w.queue = event :: queue → w.terminalOverflow = false → w.Delivers event attempt

/-- The connection is over, or what could not be delivered is text and what is held is kept. -/
def Remembering (w : Worker) : Prop :=
  w.terminalOverflow = true ∨
    ((∀ u ∈ w.undelivered, ∃ unicode, u = .event (.keyboard (.unicodeReleased unicode)) ∧
        Handlers.unicodeReleases unicode ≠ []) ∧
      Held w.backend w.handlers)

theorem remembering_start (config : InputConfig) (layout : String) :
    (start config layout).Remembering :=
  Or.inr ⟨fun _ hu => absurd hu List.not_mem_nil, Finset.empty_subset _,
    fun _ hbutton => absurd hbutton (Finset.notMem_empty _)⟩

/-- Text is injected whatever is kept. -/
theorem keepsReleases_of_remembering (h : w.Remembering) : w.KeepsReleases := by
  obtain hover | ⟨htext, hheld⟩ := h
  · exact Or.inl hover
  · refine Or.inr ⟨fun u hu => ?_, hheld⟩
    obtain ⟨unicode, rfl, hsome⟩ := htext u hu
    refine decide_eq_true ?_
    intro hnone
    exact hsome (Except.ok.inj hnone)

/-- Whether the connection is over after an event. -/
theorem process_terminalOverflow (hover : w.terminalOverflow = false) :
    (w.process event attempt).terminalOverflow =
      (!(performed (w.handlers.plan w.config event attempt.circumstances).1 attempt).2 &&
        injectionFailuresAreTerminal (w.failures event)) := by
  unfold process
  dsimp only
  split
  · rename_i hdone
    rw [hdone]
    exact hover
  · rename_i hdone
    rw [Bool.eq_false_iff.mpr hdone]
    cases event with
    | keyboard event => rfl
    | mouse event => rfl

variable (w event attempt) in
/-- What an event leaves, whether or not it fails. -/
theorem process_eq :
    (w.process event attempt).config = w.config ∧
      (w.process event attempt).handlers =
        (w.handlers.plan w.config event attempt.circumstances).2 ∧
      (w.process event attempt).backend =
        w.seen event (w.handlers.plan w.config event attempt.circumstances).1 attempt ∧
      (w.process event attempt).undelivered =
        w.missing event (w.handlers.plan w.config event attempt.circumstances).1 attempt := by
  unfold process
  dsimp only
  split
  · exact ⟨rfl, rfl, rfl, rfl⟩
  · cases event with
    | keyboard event => exact ⟨rfl, rfl, rfl, rfl⟩
    | mouse event => exact ⟨rfl, rfl, rfl, rfl⟩

theorem pasteReleases_eq_nil {plan : Plan}
    (h : plan.paste = true → attempt.pasteResults 2 = true ∧ attempt.pasteResults 3 = true) :
    pasteReleases plan attempt false = [] := by
  rw [pasteReleases]
  split
  · rename_i hpaste
    obtain ⟨hv, hctrl⟩ := h hpaste
    have hfailed : ∀ i ∈ pasted attempt.pasteResults false,
        ¬ (i = .keycode 47 false ∨ i = .keycode 29 false) := by
      intro i hi
      rw [pasted, List.mem_map] at hi
      obtain ⟨⟨j, n⟩, hj, rfl⟩ := hi
      simp only [pasteInjections, List.zipIdx_cons, List.zipIdx_nil, List.mem_filter,
        List.mem_cons, List.not_mem_nil, or_false, Prod.mk.injEq, decide_eq_true_eq] at hj
      obtain ⟨⟨rfl, rfl⟩ | ⟨rfl, rfl⟩ | ⟨rfl, rfl⟩ | ⟨rfl, rfl⟩, hresult⟩ := hj
      · decide
      · decide
      · cases hresult.symm.trans hv
      · cases hresult.symm.trans hctrl
    rw [List.map_eq_nil_iff, List.filter_eq_nil_iff]
    intro i hi
    rw [decide_eq_true_eq]
    exact hfailed i hi
  · rfl

theorem exists_mem_pasteReleases {plan : Plan} (hpaste : plan.paste = true)
    (h : ¬ (attempt.pasteResults 2 = true ∧ attempt.pasteResults 3 = true)) :
    ∃ i, .paste i ∈ pasteReleases plan attempt false := by
  rw [pasteReleases, if_pos hpaste, pasted]
  cases hv : attempt.pasteResults 2 with
  | false => exact ⟨.keycode 47 false, by simp [pasteInjections, hv]⟩
  | true =>
    cases hctrl : attempt.pasteResults 3 with
    | false => exact ⟨.keycode 29 false, by simp [pasteInjections, hctrl]⟩
    | true => exact absurd ⟨hv, hctrl⟩ h

/-- What is missing after an event whose paste is delivered. -/
theorem mem_missing {plan : Plan} {u : Undelivered}
    (hpaste : plan.paste = true → attempt.pasteResults 2 = true ∧ attempt.pasteResults 3 = true)
    (hu : u ∈ w.missing event plan attempt) :
    u ∈ w.undelivered ∨
      (u = .event event ∧ callFails plan attempt = true ∧ inputEventIsDroppable event = false) := by
  rw [missing, pasteReleases_eq_nil hpaste, List.append_nil] at hu
  split at hu
  · split at hu
    · exact Or.inl (List.mem_of_mem_filter hu)
    · exact Or.inl (List.mem_of_mem_filter (List.mem_of_mem_filter hu))
  · split at hu
    · rename_i hlost
      rw [Bool.and_eq_true, Bool.not_eq_true'] at hlost
      rcases List.mem_cons.mp hu with rfl | hu
      · exact Or.inr ⟨rfl, hlost⟩
      · exact Or.inl (List.mem_of_mem_filter hu)
    · exact Or.inl (List.mem_of_mem_filter hu)

/-- A release of a paste that is not delivered is missing. -/
theorem paste_mem_missing {plan : Plan} {i : Injection}
    (hi : .paste i ∈ pasteReleases plan attempt false) :
    .paste i ∈ w.missing event plan attempt := by
  have hbefore : .paste i ∈ w.undelivered.filter (· ∉ pasteReleases plan attempt true) ++
      pasteReleases plan attempt false := List.mem_append_right _ hi
  rw [missing]
  split
  · split
    · exact hbefore
    · exact List.mem_filter.mpr ⟨hbefore, by simp⟩
  · split
    · exact List.mem_cons_of_mem _ hbefore
    · exact hbefore

theorem performed_of_callFails {plan : Plan} (h : callFails plan attempt = true) :
    (performed plan attempt).2 = false := by
  rw [callFails] at h
  split at h
  · cases h
  · rename_i injections hplan
    rw [(performed_of_ok hplan attempt).1]
    exact (Bool.not_eq_true' _).mp h

/-- A release that is not delivered is missing. -/
theorem event_mem_missing {plan : Plan} (hfails : callFails plan attempt = true)
    (hevent : inputEventIsDroppable event = false) :
    .event event ∈ w.missing event plan attempt := by
  rw [missing, performed_of_callFails hfails, hfails, hevent]
  exact List.mem_cons_self ..

/-- A release or synchronization that is not delivered is not injected again. -/
theorem not_remembers_of_forgets (hforgets : forgets event = true)
    (hfails : callFails (w.handlers.plan w.config event attempt.circumstances).1 attempt = true) :
    (w.process event attempt).remembers (.event event) = false := by
  obtain ⟨hconfig, hhandlers, -, -⟩ := process_eq w event attempt
  rw [remembers, hconfig, hhandlers]
  refine decide_eq_false (not_not_intro ?_)
  cases event with
  | keyboard event =>
    cases event with
    | released code extended =>
      obtain ⟨-, ⟨-, hnil⟩ | ⟨keycode, -, -, hagain⟩⟩ :=
        Handlers.planReleased_spec w.handlers code extended attempt.circumstances.now
      · -- A release that injects nothing does not fail.
        obtain ⟨injections, hplan, hsome⟩ := exists_of_callFails hfails
        exact absurd (hnil injections hplan) hsome
      · exact hagain 0
    | synchronize capsLock numLock scrollLock =>
      exact Handlers.planSynchronize_spec w.handlers capsLock numLock scrollLock
    | pressed code extended => cases hforgets
    | unicodePressed unicode => cases hforgets
    | unicodeReleased unicode => cases hforgets
  | mouse event =>
    cases event with
    | button button pressed =>
      cases pressed with
      | true => cases hforgets
      | false =>
        obtain ⟨-, ⟨-, hnil⟩ | ⟨hstates, -⟩⟩ :=
          Handlers.planButton_spec w.handlers button false attempt.circumstances
        · obtain ⟨injections, hplan, hsome⟩ := exists_of_callFails hfails
          exact absurd (Except.ok.inj (hplan.symm.trans hnil)) hsome
        · refine Handlers.planButton_same ?_ _
          show (w.handlers.planMouse (.button button false)
            attempt.circumstances).2.mouse.buttonStates button = false
          rw [hstates, Function.update_self]
    | move x y => cases hforgets
    | relMove x y => cases hforgets
    | verticalScroll value => cases hforgets
    | scroll x y => cases hforgets

theorem not_droppable_of_forgets (h : forgets event = true) :
    inputEventIsDroppable event = false := by
  unfold forgets at h
  split at h
  · rfl
  · rfl
  · rfl
  · cases h

/-- What may not be dropped and is not forgotten is text that is let go. -/
theorem eq_unicodeReleased (hforgets : forgets event = false)
    (hevent : inputEventIsDroppable event = false) :
    ∃ unicode, event = .keyboard (.unicodeReleased unicode) := by
  unfold inputEventIsDroppable at hevent
  split at hevent
  · cases hforgets
  · exact ⟨_, rfl⟩
  · cases hforgets
  · cases hevent
  · cases hforgets
  · cases hevent

/-- An event that ends the connection, or delivers what would be forgotten, leaves what it could not
deliver to be injected again. -/
theorem remembering_process (hw : w.Remembering) (hover : w.terminalOverflow = false)
    (h : w.Delivers event attempt) : (w.process event attempt).Remembering := by
  obtain ⟨hfailed, hterminal⟩ | ⟨hpaste, hforgets⟩ := h
  · left
    rw [process_terminalOverflow hover, hfailed, hterminal]
    rfl
  · obtain hover' | ⟨htext, hheld⟩ := hw
    · cases hover.symm.trans hover'
    · right
      obtain ⟨-, hhandlers, hbackend, hundelivered⟩ := process_eq w event attempt
      rw [hundelivered, hbackend, hhandlers]
      refine ⟨fun u hu => ?_, held_process hheld hforgets⟩
      obtain hold | ⟨rfl, hfails, hevent⟩ := mem_missing hpaste hu
      · exact htext u hold
      · obtain ⟨unicode, rfl⟩ := eq_unicodeReleased (hforgets hfails) hevent
        obtain ⟨injections, hplan, hsome⟩ := exists_of_callFails hfails
        cases hplan
        exact ⟨unicode, rfl, hsome⟩

/-- Any other event is forgotten though it was not delivered. -/
theorem not_keepsReleases_process (hover : w.terminalOverflow = false)
    (h : ¬ w.Delivers event attempt) : ¬ (w.process event attempt).KeepsReleases := by
  obtain ⟨hgoes, hloses⟩ := not_or.mp h
  obtain ⟨-, -, -, hundelivered⟩ := process_eq w event attempt
  rintro (hterminal | ⟨hkept, -⟩)
  · rw [process_terminalOverflow hover, Bool.and_eq_true, Bool.not_eq_true'] at hterminal
    exact hgoes hterminal
  · rw [hundelivered] at hkept
    by_cases hpaste : (w.handlers.plan w.config event attempt.circumstances).1.paste = true →
        attempt.pasteResults 2 = true ∧ attempt.pasteResults 3 = true
    · have hlost : ¬ (callFails (w.handlers.plan w.config event attempt.circumstances).1 attempt =
          true → forgets event = false) := fun hforgets => hloses ⟨hpaste, hforgets⟩
      obtain ⟨hfails, hforgets⟩ := Classical.not_imp.mp hlost
      rw [Bool.not_eq_false] at hforgets
      have hmem := event_mem_missing (w := w) hfails (not_droppable_of_forgets hforgets)
      cases (not_remembers_of_forgets hforgets hfails).symm.trans (hkept _ hmem)
    · obtain ⟨hpasted, hresults⟩ := Classical.not_imp.mp hpaste
      obtain ⟨i, hi⟩ := exists_mem_pasteReleases hpasted hresults
      cases hkept _ (paste_mem_missing hi)

/-- The step that handles an event. -/
theorem step_work {queue : List InputEvent} (hqueue : w.queue = event :: queue)
    (hover : w.terminalOverflow = false) :
    w.step (.work attempt) = { w with queue }.process event attempt := by
  rw [step, hqueue, hover]
  rfl

theorem remembering_enqueueInput (hw : w.Remembering) : (w.enqueueInput event).Remembering := by
  rw [enqueueInput]
  split
  · exact hw
  · split
    · exact hw
    · split
      · exact hw
      · exact Or.inl rfl

theorem remembering_step {input : WorkerInput} (hw : w.Remembering) (h : w.DeliversReleases input) :
    (w.step input).Remembering := by
  cases input with
  | enqueue event => exact remembering_enqueueInput hw
  | work attempt =>
    cases hqueue : w.queue with
    | nil =>
      have hstep : w.step (.work attempt) = w := by rw [step, hqueue]
      rw [hstep]
      exact hw
    | cons event queue =>
      cases hover : w.terminalOverflow with
      | true =>
        have hstep : w.step (.work attempt) = { w with queue := [] } := by
          rw [step, hqueue, hover]
          rfl
        rw [hstep]
        exact hw
      | false =>
        rw [step_work hqueue hover]
        exact remembering_process (w := { w with queue }) hw hover (h event queue hqueue hover)

theorem not_keepsReleases_step {input : WorkerInput} (h : ¬ w.DeliversReleases input) :
    ¬ (w.step input).KeepsReleases := by
  cases input with
  | enqueue event => exact absurd trivial h
  | work attempt =>
    rw [DeliversReleases] at h
    push Not at h
    obtain ⟨event, queue, hqueue, hover, hloses⟩ := h
    rw [step_work hqueue hover]
    exact not_keepsReleases_process (w := { w with queue }) hover hloses

end Worker

/-- **What could not be delivered can still be, or the connection is over**, at every moment of a
run, exactly when each event that is handled either fails as one too many, or delivers the releases
of its paste and, if it is a release of a key or button or a synchronization, all that it
injects. -/
theorem releases_kept_iff (config : InputConfig) (layout : String) (inputs : List WorkerInput) :
    inputMachine.Always Worker.KeepsReleases (.start config layout) inputs ↔
      inputMachine.Along Worker.DeliversReleases (.start config layout) inputs := by
  refine Machine.always_iff_along (I := Worker.Remembering) ?_
    (fun w hw => Worker.keepsReleases_of_remembering hw) ?_ (Worker.remembering_start config layout)
  · intro w input hw hdelivers
    exact Worker.remembering_step hw hdelivers
  · intro w input hw hloses
    exact Worker.not_keepsReleases_step hloses

/-- Press A and let it go, where the second call fails, then let it go again. -/
def unseenRelease : List WorkerInput :=
  let attempt (result : Bool) : WorkerInput :=
    .work ⟨⟨0, true, true⟩, fun _ => result, fun _ => result⟩
  [.enqueue (.keyboard (.pressed 0x1E false)), attempt true,
    .enqueue (.keyboard (.released 0x1E false)), attempt false,
    .enqueue (.keyboard (.released 0x1E false)), attempt true]

/-- A is still held, the connection goes on, and the handler takes A to be up. -/
theorem release_forgotten :
    ¬ inputMachine.Always Worker.KeepsReleases (.start ⟨true, true⟩ "us") unseenRelease ∧
      (let w := inputMachine.exec (.start ⟨true, true⟩ "us") unseenRelease
      w.terminalOverflow = false ∧ w.backend.heldKeys = {30} ∧
        w.handlers.keyboard.pressedKeys = ∅ ∧
        w.undelivered = [.event (.keyboard (.released 0x1E false))]) := by
  constructor
  · rintro ⟨-, -, -, -, hover | ⟨hkept, -⟩, -⟩
    · exact absurd hover (by decide)
    · exact absurd (hkept (.event (.keyboard (.released 0x1E false))) (by decide)) (by decide)
  · decide

end Input

end Cheirizo
