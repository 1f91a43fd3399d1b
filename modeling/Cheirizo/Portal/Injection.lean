import Cheirizo.Lib.Fallible
import Cheirizo.Lib.Log
import Cheirizo.Portal.Lifecycle

/-!
# What gets injected

An event is injected for a session that has a context, and contexts are made by `ConnectToEIS` only,
which never gives the session manager back. So all that is ever injected was authorized before the
first and only context was made, and is for the session of this context. No other call is answered
after that.

## Main definitions

* `Reason` — what has to stand in the log before an action
* `Grounded` — what the state knows of the log

## Main results

* `blocked_of_run` — what happens after a context was made
* `sent_of_run` — what reaches a virtual device
-/

namespace Cheirizo

namespace Portal

open Fallible

/-! ### The log -/

/-- What has to be in the log before an action. All but the end of an injection comes before the
first context. -/
def Reason (keymap : UInt32 → Option UInt32) (before : List PortalAction) : PortalAction → Prop
  | .sent session event => ∃ (devices : DeviceTypes) (n : Notification) (events : List InputEvent),
      .connected session devices ∈ before ∧ devices.allows event.device = true ∧
      .authorized session n ∈ before ∧ n.events keymap = .ok events ∧ event ∈ events
  | .notified session n _ => .authorized session n ∈ before
  | _ => ∀ session devices, .connected session devices ∉ before

/-- An action that neither authorizes nor injects anything. -/
def PortalAction.Plain : PortalAction → Prop
  | answered _ _ => True
  | refused _ _ _ => True
  | closed _ => True
  | _ => False

/-- A plain action needs no more than that no context was made before it. -/
theorem reason_of_plain {keymap : UInt32 → Option UInt32} {before : List PortalAction}
    {a : PortalAction} (ha : a.Plain)
    (hfree : ∀ session devices, .connected session devices ∉ before) : Reason keymap before a := by
  cases a with
  | answered => exact hfree
  | refused => exact hfree
  | closed => exact hfree
  | authorized => exact ha.elim
  | connected => exact ha.elim
  | sent => exact ha.elim
  | notified => exact ha.elim

/-- What was authorized was authorized before the context. -/
theorem authorized_before {keymap : UInt32 → Option UInt32} {before after : List PortalAction}
    {session other : String} {devices : DeviceTypes} {n : Notification}
    (h : Supported (Reason keymap) (before ++ .connected session devices :: after))
    (hn : .authorized other n ∈ before ++ .connected session devices :: after) :
    .authorized other n ∈ before := by
  obtain hn | hn := List.mem_append.mp hn
  · exact hn
  obtain hn | hn := List.mem_cons.mp hn
  · cases hn
  obtain ⟨front, back, rfl⟩ := List.append_of_mem hn
  refine absurd ?_ (h (before ++ .connected session devices :: front) (.authorized other n) back
    (by rw [List.append_assoc]; rfl) session devices)
  exact List.mem_append_right _ List.mem_cons_self

/-- There is one context at most. -/
theorem connected_unique {keymap : UInt32 → Option UInt32} {before after : List PortalAction}
    {session other : String} {devices devices' : DeviceTypes}
    (h : Supported (Reason keymap) (before ++ .connected session devices :: after)) :
    .connected other devices' ∉ before ∧ .connected other devices' ∉ after := by
  refine ⟨h before (.connected session devices) after rfl other devices', fun hin => ?_⟩
  obtain ⟨front, back, rfl⟩ := List.append_of_mem hin
  exact h (before ++ .connected session devices :: front) (.connected other devices') back
    (by rw [List.append_assoc]; rfl) session devices (List.mem_append_right _ List.mem_cons_self)

/-! ### One call -/

variable {p : PortalState}

/-- What a call does to the lock, to the input backend and to what is left to do. -/
inductive LockedStep (p : PortalState) : PortalState × List PortalAction → Prop
  | plain (q : PortalState) (actions : List PortalAction) (hheld : q.held = p.held)
      (hkeymap : q.input.keymap = p.input.keymap) (hcontexts : q.input.contexts = p.input.contexts)
      (hrests : ∀ session n, .inject session n ∈ q.rests → .inject session n ∈ p.rests)
      (hactions : ∀ a ∈ actions, a.Plain) : LockedStep p (q, actions)
  | authorized (session : String) (n : Notification) :
      LockedStep p ({ p with rests := p.rests ++ [.inject session n] }, [.authorized session n])
  | connected (session : String) (devices : DeviceTypes) (input : InputBackend)
      (context : WlrSessionContext) (hkeymap : input.keymap = p.input.keymap)
      (hcontexts : input.contexts = Function.update p.input.contexts session (some context))
      (hpointer : context.pointer = true → devices.pointer = true)
      (hkeyboard : context.keyboard = true → devices.keyboard = true) :
      LockedStep p ({ p with input, held := true }, [.connected session devices])

/-- A call that only looks at the sessions. -/
theorem LockedStep.of_same {q : PortalState} {actions : List PortalAction}
    (hheld : q.held = p.held) (hinput : q.input = p.input) (hrests : q.rests = p.rests)
    (hactions : ∀ a ∈ actions, a.Plain) : LockedStep p (q, actions) :=
  .plain q actions hheld (by rw [hinput]) (by rw [hinput]) (fun _ _ h => hrests ▸ h) hactions

theorem plain_singleton {a : PortalAction} (ha : a.Plain) : ∀ b ∈ [a], b.Plain :=
  fun _ hb => List.mem_singleton.mp hb ▸ ha

/-- A call that is answered makes no context. -/
theorem LockedStep.answer (call : PortalCall) (r : Requested)
    (result : Except Leave (Opened × Reply)) : LockedStep p (p.answer call r result) := by
  cases result with
  | error leave => exact .of_same rfl rfl rfl (plain_singleton trivial)
  | ok end_ => exact .of_same rfl rfl rfl (plain_singleton trivial)

/-- Nor does a start. -/
theorem LockedStep.start (call : PortalCall) (r : Requested)
    (result : Except Leave (Opened × Reply)) :
    LockedStep p (PortalState.mapStreams (p.answer call r result)) := by
  cases result with
  | error leave => exact .of_same rfl rfl rfl (plain_singleton trivial)
  | ok done =>
    obtain ⟨o, reply⟩ := done
    cases reply with
    | started results =>
      refine .plain _ _ rfl ?_ ?_ (fun _ _ h => h) (plain_singleton trivial)
      · show (if results.streams = [] then p.input else { p.input with
          streamMappings := results.streams.map StreamInfo.mapping }).keymap = p.input.keymap
        split <;> rfl
      · show (if results.streams = [] then p.input else { p.input with
          streamMappings := results.streams.map StreamInfo.mapping }).contexts = p.input.contexts
        split <;> rfl
    | success => exact .of_same rfl rfl rfl (plain_singleton trivial)
    | other => exact .of_same rfl rfl rfl (plain_singleton trivial)
    | created session => exact .of_same rfl rfl rfl (plain_singleton trivial)

/-- Of sessions that are closed something is left to do, but it is no injection. -/
theorem LockedStep.release (closed : List Session) (manager : SessionManager) :
    LockedStep p (p.release closed manager) := by
  refine .plain _ _ rfl rfl rfl (fun session n h => ?_) (plain_singleton trivial)
  obtain h | h := List.mem_append.mp h
  · exact h
  · exact absurd (List.mem_singleton.mp h) Rest.noConfusion

/-- Of sessions that are only forgotten nothing is left to do. -/
theorem LockedStep.forget (closed : List Session) (manager : SessionManager) :
    LockedStep p (p.forget closed manager) :=
  .of_same rfl rfl rfl (plain_singleton trivial)

/-- A context on the virtual devices has no more of them than were granted. -/
theorem wlrCreateContext_ok {b b' : InputBackend} {session : String} {devices : DeviceTypes}
    {c : Creation} (h : b.wlrCreateContext session devices c = .ok b') :
    b'.keymap = b.keymap ∧ ∃ context : WlrSessionContext,
      b'.contexts = Function.update b.contexts session (some context) ∧
      (context.pointer = true → devices.pointer = true) ∧
      (context.keyboard = true → devices.keyboard = true) := by
  rw [InputBackend.wlrCreateContext] at h
  split at h
  · cases h
  split at h
  · cases h
  · obtain rfl := Except.ok.inj h
    exact ⟨rfl, _, rfl, fun hp => (Bool.and_eq_true_iff.mp hp).1,
      fun hk => (Bool.and_eq_true_iff.mp hk).1⟩

/-- The same of every backend. -/
theorem createContext_ok {b b' : InputBackend} {session : String} {devices : DeviceTypes}
    {c : Creation} (h : b.createContext session devices c = .ok b') :
    b'.keymap = b.keymap ∧ ∃ context : WlrSessionContext,
      b'.contexts = Function.update b.contexts session (some context) ∧
      (context.pointer = true → devices.pointer = true) ∧
      (context.keyboard = true → devices.keyboard = true) := by
  rw [InputBackend.createContext] at h
  split at h
  · exact wlrCreateContext_ok h
  split at h
  · cases h
  split at h
  · cases h
  · obtain ⟨made, hmade, rfl⟩ := map_eq_ok.mp h
    obtain ⟨hkeymap, context, hcontexts, hdevices⟩ := wlrCreateContext_ok hmade
    exact ⟨hkeymap, context, hcontexts, hdevices⟩

/-- A connection is for a session of the caller that may have it, with the devices it was
granted. -/
theorem connectToEis_ok {session appId sender : String} {creation : Creation}
    {input : InputBackend} {devices : DeviceTypes}
    (h : p.connectToEis session appId sender creation = .ok (input, devices)) :
    ∃ o : Opened, p.validateSession session appId sender = .ok o ∧ o.canConnectToEis = true ∧
      devices = o.grants.deviceTypes ∧
      p.input.createContext session o.grants.deviceTypes creation = .ok input := by
  obtain ⟨o, ho, h⟩ := bind_eq_ok.mp h
  obtain ⟨hcan, h⟩ := guard_eq_ok.mp h
  obtain ⟨made, hmade, h⟩ := bind_eq_ok.mp h
  obtain ⟨rfl, rfl⟩ := Prod.mk.inj (Except.ok.inj h)
  exact ⟨o, ho, by simpa using hcan, rfl, mapError_eq_ok.mp hmade⟩

/-- What a call does while it has the session manager. -/
theorem lockedStep (p : PortalState) (call : PortalCall) : LockedStep p (p.locked call) := by
  cases call with
  | createSession r persistMode createdAt lastActivity =>
    rw [PortalState.locked]
    split
    · exact .of_same rfl rfl rfl (plain_singleton trivial)
    · exact .of_same rfl rfl rfl (plain_singleton trivial)
  | selectDevices r types => exact .answer _ r _
  | selectSources r restoreData persistMode available picked =>
    rw [PortalState.locked]
    split
    · exact .answer _ r _
    · rename_i q leave hleave
      obtain rfl | ⟨o, -, rfl⟩ := selectSources_eq_error hleave
      · exact .of_same rfl rfl rfl (plain_singleton trivial)
      · exact .of_same rfl rfl rfl (plain_singleton trivial)
  | start r captured => exact .start _ r _
  | startCast r captured => exact .answer _ r _
  | connectToEis session appId sender creation =>
    rw [PortalState.locked]
    split
    · exact .of_same rfl rfl rfl (plain_singleton trivial)
    · rename_i input devices hmade
      obtain ⟨o, -, -, rfl, hcreated⟩ := connectToEis_ok hmade
      obtain ⟨hkeymap, context, hcontexts, hpointer, hkeyboard⟩ := createContext_ok hcreated
      exact .connected session _ input context hkeymap hcontexts hpointer hkeyboard
  | requestClipboard session =>
    rw [PortalState.locked]
    split
    · exact .of_same rfl rfl rfl (plain_singleton trivial)
    split
    · exact .of_same rfl rfl rfl (plain_singleton trivial)
    · exact .of_same rfl rfl rfl (plain_singleton trivial)
  | notify session n =>
    rw [PortalState.locked]
    split
    · exact .of_same rfl rfl rfl (plain_singleton trivial)
    · exact .authorized session n
  | close session => exact .release _ _
  | cancel session =>
    cases session with
    | none => exact .of_same rfl rfl rfl fun _ h => absurd h List.not_mem_nil
    | some session => exact .forget _ _
  | disconnected sender => exact .release _ _
  | cleanup now =>
    rw [PortalState.locked]
    split
    · exact .of_same rfl rfl rfl fun _ h => absurd h List.not_mem_nil
    · exact .forget _ _

/-! ### Runs -/

/-- What the state knows of the log. -/
structure Grounded (keymap : UInt32 → Option UInt32) (p : PortalState) (log : List PortalAction) :
    Prop where
  same : p.input.keymap = keymap
  held : p.held = true ↔ ∃ session devices, .connected session devices ∈ log
  contexts : ∀ session context, p.input.contexts session = some context →
    ∃ devices, .connected session devices ∈ log ∧
      (context.pointer = true → devices.pointer = true) ∧
      (context.keyboard = true → devices.keyboard = true)
  rests : ∀ session n, .inject session n ∈ p.rests → .authorized session n ∈ log
  supported : Supported (Reason keymap) log

variable {keymap : UInt32 → Option UInt32} {log : List PortalAction}

/-- As long as the session manager can be had, no context has been made. -/
theorem Grounded.free (h : Grounded keymap p log) (hheld : p.held = false) (session : String)
    (devices : DeviceTypes) : .connected session devices ∉ log := fun hin =>
  absurd (h.held.mpr ⟨session, devices, hin⟩) (by rw [hheld]; exact Bool.false_ne_true)

/-- Whatever the state has in common with one that is grounded. -/
theorem Grounded.of_eq {q : PortalState} (h : Grounded keymap p log) (hheld : q.held = p.held)
    (hkeymap : q.input.keymap = p.input.keymap)
    (hcontexts : ∀ session context, q.input.contexts session = some context →
      p.input.contexts session = some context)
    (hrests : ∀ session n, .inject session n ∈ q.rests → .inject session n ∈ p.rests) :
    Grounded keymap q log where
  same := hkeymap.trans h.same
  held := by rw [hheld]; exact h.held
  contexts session context hcontext := h.contexts session context (hcontexts _ _ hcontext)
  rests session n hn := h.rests session n (hrests _ _ hn)
  supported := h.supported

/-- Plain actions can be added as long as there is no context. -/
theorem Grounded.append_plain (h : Grounded keymap p log) (hheld : p.held = false)
    {actions : List PortalAction} (hactions : ∀ a ∈ actions, a.Plain) :
    Grounded keymap p (log ++ actions) where
  same := h.same
  held := by
    rw [hheld]
    refine iff_of_false Bool.false_ne_true ?_
    rintro ⟨session, devices, hin⟩
    obtain hin | hin := List.mem_append.mp hin
    · exact h.free hheld session devices hin
    · exact hactions _ hin
  contexts session context hcontext := by
    obtain ⟨devices, hin, hdevices⟩ := h.contexts session context hcontext
    exact ⟨devices, List.mem_append_left _ hin, hdevices⟩
  rests session n hn := List.mem_append_left _ (h.rests session n hn)
  supported := by
    refine supported_append.mpr ⟨h.supported, fun before a after hsplit => ?_⟩
    refine reason_of_plain (hactions a (by rw [hsplit]; simp)) fun session devices hin => ?_
    obtain hin | hin := List.mem_append.mp hin
    · exact h.free hheld session devices hin
    · exact hactions (.connected session devices)
        (by rw [hsplit]; exact List.mem_append_left _ hin)

/-- A call that has the session manager. -/
theorem Grounded.locked (h : Grounded keymap p log) (hheld : p.held = false) (call : PortalCall) :
    Grounded keymap (p.locked call).1 (log ++ (p.locked call).2) := by
  have hstep := lockedStep p call
  generalize p.locked call = result at hstep ⊢
  cases hstep with
  | plain q actions hq hkeymap hcontexts hrests hactions =>
    exact (h.of_eq hq hkeymap (fun _ _ hc => hcontexts ▸ hc) hrests).append_plain
      (hq.trans hheld) hactions
  | authorized session n =>
    refine ⟨h.same, ?_, ?_, ?_, supported_append.mpr ⟨h.supported, supported_singleton.mpr ?_⟩⟩
    · rw [h.held]
      simp
    · intro other context hcontext
      obtain ⟨devices, hin, hdevices⟩ := h.contexts other context hcontext
      exact ⟨devices, List.mem_append_left _ hin, hdevices⟩
    · intro other m hm
      obtain hm | hm := List.mem_append.mp hm
      · exact List.mem_append_left _ (h.rests other m hm)
      · obtain ⟨rfl, rfl⟩ := Rest.inject.inj (List.mem_singleton.mp hm)
        exact List.mem_append_right _ List.mem_cons_self
    · rw [List.append_nil]
      exact h.free hheld
  | connected session devices input context hkeymap hcontexts hpointer hkeyboard =>
    refine ⟨hkeymap.trans h.same, ?_, ?_, ?_,
      supported_append.mpr ⟨h.supported, supported_singleton.mpr ?_⟩⟩
    · exact iff_of_true rfl ⟨session, devices, List.mem_append_right _ List.mem_cons_self⟩
    · intro other found hfound
      have hfound : Function.update p.input.contexts session (some context) other = some found :=
        hcontexts ▸ hfound
      by_cases hother : other = session
      · rw [hother, Function.update_self] at hfound
        obtain rfl := Option.some.inj hfound
        exact ⟨devices, by rw [hother]; exact List.mem_append_right _ List.mem_cons_self,
          hpointer, hkeyboard⟩
      · rw [Function.update_of_ne hother] at hfound
        obtain ⟨devices', hin, hdevices⟩ := h.contexts other found hfound
        exact ⟨devices', List.mem_append_left _ hin, hdevices⟩
    · exact fun other m hm => List.mem_append_left _ (h.rests other m hm)
    · rw [List.append_nil]
      exact h.free hheld

/-- What got to a device is for a context that has it, and among the events. -/
theorem mem_injectEach {b : InputBackend} {session : String} {flush : InputEvent → Option String}
    {events : List InputEvent} {event : InputEvent}
    (h : event ∈ (b.injectEach session flush events).1) :
    event ∈ events ∧ ∃ context, b.contexts session = some context ∧
      (event.device = .pointer ∧ context.pointer = true ∨
        event.device = .keyboard ∧ context.keyboard = true) := by
  have hsent : ∀ e : InputEvent, (b.injectEvent session e (flush e)).1 = true →
      ∃ context, b.contexts session = some context ∧
        (e.device = .pointer ∧ context.pointer = true ∨
          e.device = .keyboard ∧ context.keyboard = true) := by
    intro e he
    simp only [InputBackend.injectEvent] at he
    split at he
    · cases he
    · rename_i context hcontext
      split at he
      · exact ⟨context, hcontext, Or.inl ⟨by assumption, he⟩⟩
      · exact ⟨context, hcontext, Or.inr ⟨by assumption, he⟩⟩
      · cases he
  induction events with
  | nil => exact absurd h List.not_mem_nil
  | cons first events ih =>
    have hfirst : event ∈ (if (b.injectEvent session first (flush first)).1 then [first] else []) →
        event ∈ first :: events ∧ ∃ context, b.contexts session = some context ∧
          (event.device = .pointer ∧ context.pointer = true ∨
            event.device = .keyboard ∧ context.keyboard = true) := by
      intro hin
      split at hin
      · rename_i hgot
        obtain rfl := List.mem_singleton.mp hin
        exact ⟨List.mem_cons_self, hsent event hgot⟩
      · exact absurd hin List.not_mem_nil
    rw [InputBackend.injectEach] at h
    dsimp only at h
    split at h
    · exact hfirst h
    · obtain h | h := List.mem_append.mp h
      · exact hfirst h
      · obtain ⟨hin, hcontext⟩ := ih h
        exact ⟨List.mem_cons_of_mem _ hin, hcontext⟩

/-- What is left of a call after the session manager was given back. -/
theorem Grounded.resume (h : Grounded keymap p log) (flush : InputEvent → Option String)
    {rest : Rest} (hrest : ∀ session n, rest = .inject session n → .authorized session n ∈ log) :
    Grounded keymap (p.resume flush rest).1 (log ++ (p.resume flush rest).2.2) ∧
      ∀ session n, .inject session n ∉ (p.resume flush rest).2.1 := by
  have hnone : ∀ session n, Rest.inject session n ∉ (none : Option Rest) :=
    fun _ _ => Option.not_mem_none _
  cases rest with
  | release sessions =>
    cases sessions with
    | nil =>
      refine ⟨?_, hnone⟩
      show Grounded keymap p (log ++ [])
      rw [List.append_nil]
      exact h
    | cons session sessions =>
      refine ⟨?_, fun other n hn => by cases Option.mem_some_iff.mp hn⟩
      show Grounded keymap { p with input := p.input.destroyContext session } (log ++ [])
      rw [List.append_nil]
      refine h.of_eq rfl rfl (fun other context hcontext => ?_) fun _ _ hn => hn
      have hcontext : Function.update p.input.contexts session none other = some context := hcontext
      by_cases hother : other = session
      · rw [hother, Function.update_self] at hcontext
        cases hcontext
      · rw [Function.update_of_ne hother] at hcontext
        exact hcontext
  | inject session n =>
    have hauthorized := hrest session n rfl
    have hgrow : ∀ actions : List PortalAction,
        (∀ a ∈ actions, (∀ other devices, a ≠ .connected other devices)) →
        Supported (fun before => Reason keymap (log ++ before)) actions →
        Grounded keymap p (log ++ actions) := by
      intro actions hnew hsupported
      refine ⟨h.same, ?_, fun other context hcontext => ?_,
        fun other m hm => List.mem_append_left _ (h.rests other m hm),
        supported_append.mpr ⟨h.supported, hsupported⟩⟩
      · rw [h.held]
        refine exists_congr fun other => exists_congr fun devices => ?_
        rw [List.mem_append]
        exact (or_iff_left fun hin => hnew _ hin other devices rfl).symm
      · obtain ⟨devices, hin, hdevices⟩ := h.contexts other context hcontext
        exact ⟨devices, List.mem_append_left _ hin, hdevices⟩
    rw [PortalState.resume]
    split
    · rename_i fault hevents
      refine ⟨hgrow _ (fun a ha => ?_) (supported_singleton.mpr ?_), hnone⟩
      · rw [List.mem_singleton.mp ha]
        exact fun _ _ heq => PortalAction.noConfusion heq
      · rw [List.append_nil]
        exact hauthorized
    · rename_i events hevents
      have hkeymap : n.events keymap = .ok events := h.same ▸ hevents
      refine ⟨hgrow ((p.input.injectEach session flush events).1.map (.sent session) ++
        [.notified session n (p.input.injectEach session flush events).2])
        (fun a ha => ?_) (fun before a after hsplit => ?_), hnone⟩
      · obtain ha | ha := List.mem_append.mp ha
        · obtain ⟨event, -, rfl⟩ := List.mem_map.mp ha
          exact fun _ _ heq => PortalAction.noConfusion heq
        · rw [List.mem_singleton.mp ha]
          exact fun _ _ heq => PortalAction.noConfusion heq
      · have ha : a ∈ ((p.input.injectEach session flush events).1.map (.sent session)) ++
            [.notified session n (p.input.injectEach session flush events).2] := by
          rw [hsplit]
          exact List.mem_append_right _ List.mem_cons_self
        obtain ha | ha := List.mem_append.mp ha
        · obtain ⟨event, hevent, rfl⟩ := List.mem_map.mp ha
          obtain ⟨hin, context, hcontext, hdevice⟩ := mem_injectEach hevent
          obtain ⟨devices, hconnected, hpointer, hkeyboard⟩ := h.contexts session context hcontext
          refine ⟨devices, n, events, List.mem_append_left _ hconnected, ?_,
            List.mem_append_left _ hauthorized, hkeymap, hin⟩
          obtain ⟨hkind, hhas⟩ | ⟨hkind, hhas⟩ := hdevice
          · rw [hkind]
            exact hpointer hhas
          · rw [hkind]
            exact hkeyboard hhas
        · rw [List.mem_singleton.mp ha]
          exact List.mem_append_left _ hauthorized

/-- One input, whichever it is. -/
theorem Grounded.step (h : Grounded keymap p log) (i : PortalInput) :
    Grounded keymap (portalBus.step p i).1 (log ++ (portalBus.step p i).2) := by
  have hquiet : ∀ q : PortalState, q.held = p.held → q.input = p.input → q.rests = p.rests →
      Grounded keymap q (log ++ []) := by
    intro q hheld hinput hrests
    rw [List.append_nil]
    exact h.of_eq hheld (by rw [hinput]) (fun _ _ hc => hinput ▸ hc) fun _ _ hn => hrests ▸ hn
  cases i with
  | arrive call =>
    have hregister : (p.register call.request).held = p.held ∧
        (p.register call.request).input = p.input ∧
        (p.register call.request).rests = p.rests := by
      cases call.request <;> exact ⟨rfl, rfl, rfl⟩
    exact hquiet _ hregister.1 hregister.2.1 hregister.2.2
  | close handle =>
    simp only [portalBus]
    split
    · exact hquiet _ rfl rfl rfl
    · exact hquiet _ rfl rfl rfl
  | enter index =>
    simp only [portalBus]
    split
    · exact hquiet _ rfl rfl rfl
    rename_i hheld
    split
    · exact hquiet _ rfl rfl rfl
    · have hless : Grounded keymap { p with waiting := p.waiting.eraseIdx index } log :=
        h.of_eq rfl rfl (fun _ _ hc => hc) fun _ _ hn => hn
      exact hless.locked (Bool.eq_false_of_not_eq_true hheld) _
  | resume index flush =>
    simp only [portalBus]
    split
    · exact hquiet _ rfl rfl rfl
    rename_i rest hrest
    have hless : Grounded keymap { p with rests := p.rests.eraseIdx index } log :=
      h.of_eq rfl rfl (fun _ _ hc => hc) fun _ _ hn => List.mem_of_mem_eraseIdx hn
    have hauthorized : ∀ session n, rest = .inject session n → .authorized session n ∈ log :=
      fun session n heq => h.rests session n (heq ▸ List.mem_of_getElem? hrest)
    obtain ⟨hdone, hmore⟩ := hless.resume flush hauthorized
    refine hdone.of_eq rfl rfl (fun _ _ hc => hc) fun session n hn => ?_
    obtain hn | hn := List.mem_append.mp hn
    · exact hn
    · exact absurd (Option.mem_toList.mp hn) (hmore session n)

section Runs

variable (max : ℕ) (protocol : InputProtocol) (pointerManager keyboardManager seat : Bool)
  (keymap : UInt32 → Option UInt32) (inputs : List PortalInput)

/-- By induction on the inputs. -/
theorem grounded_exec :
    Grounded keymap (portalBus.exec
        (.initial max protocol pointerManager keyboardManager seat keymap) inputs)
      (portalBus.trace (.initial max protocol pointerManager keyboardManager seat keymap)
        inputs) := by
  have h : Grounded keymap (.initial max protocol pointerManager keyboardManager seat keymap) [] :=
    { same := rfl
      held := iff_of_false Bool.false_ne_true (fun ⟨_, _, hin⟩ => absurd hin List.not_mem_nil)
      contexts := fun _ _ hc => absurd hc (Option.some_ne_none _).symm
      rests := fun _ _ hn => absurd hn List.not_mem_nil
      supported := supported_nil }
  exact Machine.exec_log (I := Grounded keymap) (fun _ i _ h => h.step i) h inputs

/-- **A context blocks the portal.** In every run, the session manager is locked for good exactly if
`ConnectToEIS` has made a context. There is only one such call, and after it no call is answered, no
event is authorized and no session is closed. What still happens is the end of notifications that
were authorized before. -/
theorem blocked_of_run :
    ((portalBus.exec (.initial max protocol pointerManager keyboardManager seat keymap)
        inputs).held = true ↔ ∃ session devices, .connected session devices ∈
      portalBus.trace (.initial max protocol pointerManager keyboardManager seat keymap) inputs) ∧
    ∀ before session devices after,
      portalBus.trace (.initial max protocol pointerManager keyboardManager seat keymap) inputs =
        before ++ .connected session devices :: after →
      (∀ other devices', .connected other devices' ∉ before ∧ .connected other devices' ∉ after) ∧
      ∀ a ∈ after, ∃ other n, .authorized other n ∈ before ∧
        ((∃ event, a = .sent other event) ∨ ∃ result, a = .notified other n result) := by
  have h := grounded_exec max protocol pointerManager keyboardManager seat keymap inputs
  refine ⟨h.held, fun before session devices after hsplit => ?_⟩
  have hsupported := h.supported
  rw [hsplit] at hsupported
  refine ⟨fun _ _ => connected_unique hsupported, fun a ha => ?_⟩
  obtain ⟨front, back, rfl⟩ := List.append_of_mem ha
  have hshift : before ++ .connected session devices :: (front ++ a :: back) =
      (before ++ .connected session devices :: front) ++ a :: back := by
    rw [List.append_assoc]
    rfl
  have hreason := hsupported _ a back hshift
  have hin : .connected session devices ∈ before ++ .connected session devices :: front :=
    List.mem_append_right _ List.mem_cons_self
  have hauthorized : ∀ other n,
      .authorized other n ∈ before ++ .connected session devices :: front →
      .authorized other n ∈ before := by
    intro other n hn
    refine authorized_before hsupported ?_
    rw [hshift]
    exact List.mem_append_left _ hn
  cases a with
  | sent other event =>
    obtain ⟨-, n, -, -, -, hn, -, -⟩ := hreason
    exact ⟨other, n, hauthorized other n hn, Or.inl ⟨event, rfl⟩⟩
  | notified other n result =>
    exact ⟨other, n, hauthorized other n hreason, Or.inr ⟨result, rfl⟩⟩
  | answered call result => exact absurd hin (hreason session devices)
  | authorized other n => exact absurd hin (hreason session devices)
  | refused other n fault => exact absurd hin (hreason session devices)
  | connected other devices' => exact absurd hin (hreason session devices)
  | closed sessions => exact absurd hin (hreason session devices)

/-- **What reaches a virtual device.** In every run, an event that is sent to a device of a session
comes from a notification for that session. It was authorized before the context was made, and the
context was made for a selection of devices that has the device of the event. -/
theorem sent_of_run {before after : List PortalAction} {session : String} {event : InputEvent}
    (h : portalBus.trace (.initial max protocol pointerManager keyboardManager seat keymap) inputs =
      before ++ .sent session event :: after) :
    ∃ (past between : List PortalAction) (devices : DeviceTypes) (n : Notification)
      (events : List InputEvent),
      before = past ++ .connected session devices :: between ∧
      devices.allows event.device = true ∧ .authorized session n ∈ past ∧
      n.events keymap = .ok events ∧ event ∈ events := by
  have hsupported :=
    (grounded_exec max protocol pointerManager keyboardManager seat keymap inputs).supported
  rw [h] at hsupported
  obtain ⟨devices, n, events, hconnected, hallows, hauthorized, hevents, hin⟩ :=
    hsupported before (.sent session event) after rfl
  obtain ⟨past, between, rfl⟩ := List.append_of_mem hconnected
  exact ⟨past, between, devices, n, events, rfl, hallows,
    authorized_before (supported_append.mp hsupported).1 hauthorized, hevents, hin⟩

end Runs

/-- A session is set up, a motion is authorized, a context is made, and the motion is injected. -/
def injectionInputs : List PortalInput :=
  let r : Requested := ⟨"r", "s", "app", ":1.1"⟩
  [.arrive (.createSession r .none 0 0), .enter 0, .arrive (.selectDevices r none), .enter 0,
    .arrive (.start r (.ok [])), .enter 0, .arrive (.notify "s" (.pointerMotion 1 2)), .enter 0,
    .arrive (.connectToEis "s" "app" ":1.1" ⟨none, true, none⟩), .enter 0,
    .resume 0 fun _ => none]

theorem sent_of_run_motion :
    ∃ before after n devices,
      portalBus.trace (.initial 10 .wlrVirtualInput true true true fun _ => none)
        injectionInputs = before ++ .sent "s" (.pointer (.motion 1 2)) :: after ∧
      .connected "s" devices ∈ before ∧ .authorized "s" n ∈ before := by
  have hin : .sent "s" (.pointer (.motion 1 2)) ∈
      portalBus.trace (.initial 10 .wlrVirtualInput true true true fun _ => none)
        injectionInputs :=
    List.mem_of_getElem? (i := 5) rfl
  obtain ⟨before, after, h⟩ := List.append_of_mem hin
  obtain ⟨past, between, devices, n, events, rfl, -, hauthorized, -, -⟩ :=
    sent_of_run 10 .wlrVirtualInput true true true (fun _ => none) injectionInputs h
  exact ⟨_, after, n, devices, h, List.mem_append_right _ List.mem_cons_self,
    List.mem_append_left _ hauthorized⟩

end Portal

end Cheirizo
