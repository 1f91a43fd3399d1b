import Cheirizo.Lib.Fallible
import Cheirizo.Lib.Log
import Cheirizo.Portal.RemoteDesktop

/-!
# Sessions on the bus

The methods change sessions in place, each under its own condition on the state. Together they keep
a session in order: it is started only with something to share, and once it is started nothing of
this changes. What it shares is what was selected, and the log says what that is: the devices and
the sources of the last calls that were answered with success since the session was created.

A call that selects sources for a session that is started is refused, but leaves its persist mode
and its restore data behind. Both are no part of what is shared.

## Main definitions

* `Opened.Sound` — a session in order
* `chosen` — what an action of the log selects for a session
* `Opened.Keeps` — what a method may do to a session that is started
* `Managed` — the sessions of the portal are in order, and counted

## Main results

* `managed_step` — every step keeps them so
* `sessions_of_run` — the sessions after every run, and in the step after it
-/

namespace Cheirizo

namespace Portal

open Fallible

/-! ### One session -/

/-- A session in order: it is alive, started only with something to share, and without devices,
sources or streams that it has not come to in the usual way. -/
structure Opened.Sound (o : Opened) : Prop where
  alive : o.session.state ≠ .closed
  chosen : o.session.state = .started →
    o.grants.devicesSelected = true ∨ o.grants.sourcesSelected = true
  devices : o.grants.devicesSelected = false → o.grants.deviceTypes = .none
  sources : o.grants.sourcesSelected = false → o.grants.sources = []
  streams : o.session.state = .init → o.grants.streams = []
  eis : o.grants.usesEis = false

/-- A session that is started stays so. Its clipboard may still be enabled. -/
structure Opened.Keeps (o o' : Opened) : Prop where
  session : o'.session = o.session
  devices : o'.grants.deviceTypes = o.grants.deviceTypes
  selected : o'.grants.devicesSelected = o.grants.devicesSelected
  sources : o'.grants.sources = o.grants.sources
  streams : o'.grants.streams = o.grants.streams
  clipboard : o.grants.clipboardEnabled = true → o'.grants.clipboardEnabled = true

/-- A session may be left as it is. -/
theorem Opened.Keeps.refl (o : Opened) : o.Keeps o := ⟨rfl, rfl, rfl, rfl, rfl, id⟩

/-- The devices and the sources of a session. -/
abbrev Selection := DeviceTypes × List SourceInfo

/-- What is selected for a session. -/
def Opened.selection (o : Opened) : Selection := (o.grants.deviceTypes, o.grants.sources)

/-- What is selected for a session after an action. A session that is created has nothing selected,
and of two calls the later one counts. -/
def chosen (handle : String) (s : Selection) : PortalAction → Selection
  | .answered _ (.ok (.created session)) => if session = handle then (.none, []) else s
  | .answered (.selectDevices r types) (.ok .success) =>
    if r.session = handle then (types.elim .all .fromBits, s.2) else s
  | .answered (.selectSources r restoreData _ (.ok available) picked) (.ok .success) =>
    if r.session = handle then (s.1, restoredSources restoreData available picked) else s
  | _ => s

/-- An action that selects nothing. -/
def PortalAction.Idle (a : PortalAction) : Prop := ∀ handle s, chosen handle s a = s

/-- Actions that select nothing change no selection. -/
theorem foldl_idle {actions : List PortalAction} (h : ∀ a ∈ actions, a.Idle) (handle : String)
    (s : Selection) : actions.foldl (chosen handle) s = s := by
  induction actions with
  | nil => rfl
  | cons a actions ih =>
    rw [List.foldl_cons, h a (List.mem_cons_self ..)]
    exact ih fun b hb => h b (List.mem_cons_of_mem a hb)

/-- What a method does to a session: it stays in order, it keeps what was started, and it is the
same one. -/
structure Opened.Changes (o o' : Opened) : Prop where
  sound : o.Sound → o'.Sound
  keeps : o.session.state = .started → o.Keeps o'
  same : o'.session = { o.session with state := o'.session.state }

/-- What a call that is not refused does to its session. -/
theorem selectDevices_ok {o o' : Opened} {devices : DeviceTypes}
    (h : o.selectDevices devices = .ok o') :
    o.Changes o' ∧ o'.selection = (devices, o.grants.sources) := by
  obtain ⟨hinit, h⟩ := guard_eq_ok.mp h
  obtain rfl := Except.ok.inj h
  have hinit : o.session.state = .init := not_not.mp hinit
  refine ⟨⟨fun hs => ⟨hs.alive, fun _ => Or.inl rfl, fun hno => ?_, hs.sources, hs.streams, hs.eis⟩,
    fun hstarted => ?_, rfl⟩, rfl⟩
  · cases hno
  · rw [hinit] at hstarted
    cases hstarted

/-- The sources are stored before the answer, the rest of the options even before it is known. -/
theorem selectSources_ok {o o' : Opened} {sources : List SourceInfo}
    {persistMode : PersistMode} {restoreData : Option RestoreData}
    (h : Opened.selectSources
      { o with grants := { o.grants with persistMode, restoreData } } sources = .ok o') :
    o.Changes o' ∧ o'.selection = (o.grants.deviceTypes, sources) := by
  obtain ⟨hinit, h⟩ := guard_eq_ok.mp h
  obtain rfl := Except.ok.inj h
  have hinit : o.session.state = .init := not_not.mp hinit
  refine ⟨⟨fun hs => ⟨hs.alive, fun _ => Or.inr rfl, hs.devices, fun hno => ?_, hs.streams, hs.eis⟩,
    fun hstarted => ?_, rfl⟩, rfl⟩
  · cases hno
  · rw [hinit] at hstarted
    cases hstarted

/-- The mode and the data that a refused selection leaves behind. -/
theorem Opened.changes_written (o : Opened) (persistMode : PersistMode)
    (restoreData : Option RestoreData) :
    o.Changes { o with grants := { o.grants with persistMode, restoreData } } :=
  ⟨fun hs => ⟨hs.alive, hs.chosen, hs.devices, hs.sources, hs.streams, hs.eis⟩,
    fun _ => ⟨rfl, rfl, rfl, rfl, rfl, id⟩, rfl⟩

theorem requestClipboard_ok {o o' : Opened} (h : o.requestClipboard = .ok o') :
    o.Changes o' ∧ o'.selection = o.selection := by
  obtain ⟨-, h⟩ := guard_eq_ok.mp h
  obtain rfl := Except.ok.inj h
  exact ⟨⟨fun hs => ⟨hs.alive, hs.chosen, hs.devices, hs.sources, hs.streams, hs.eis⟩,
    fun _ => ⟨rfl, rfl, rfl, rfl, rfl, fun _ => rfl⟩, rfl⟩, rfl⟩

/-- A start changes the state only. -/
theorem start_ok {o o' : Opened} {streams : List StreamInfo} (h : o.start streams = .ok o') :
    o.Changes o' ∧ o'.selection = o.selection := by
  obtain ⟨hcan, h⟩ := guard_eq_ok.mp h
  have hcan : o.canStart = true := by simpa using hcan
  rw [Opened.canStart, Bool.and_eq_true, Bool.or_eq_true, decide_eq_true_eq] at hcan
  have htransition : Opened.transitionTo { o with grants := { o.grants with streams } } .started =
      .ok { session := { o.session with state := .started }
            grants := { o.grants with streams } } := if_pos (Or.inl ⟨hcan.1, rfl⟩)
  obtain rfl := Except.ok.inj (htransition.symm.trans h)
  refine ⟨⟨fun hs => ⟨fun hclosed => ?_, fun _ => hcan.2, hs.devices, hs.sources, fun hinit => ?_,
    hs.eis⟩, fun hstarted => ?_, rfl⟩, rfl⟩
  · cases hclosed
  · cases hinit
  · rw [hcan.1] at hstarted
    cases hstarted

/-! ### The sessions of the portal -/

variable {p : PortalState} {max : ℕ}

/-- The sessions are in order, and there are not too many of them. -/
structure Managed (max : ℕ) (p : PortalState) : Prop where
  accounted : p.manager.Accounted
  limit : p.manager.maxSessionsPerApp = max
  sound : ∀ handle o, p.getSession handle = some o → o.Sound

/-- What a step does to the sessions: those that are still there and were started keep what they
have, and what is selected for one of them afterwards is what its actions select. -/
structure Managed.Step (max : ℕ) (p q : PortalState) (actions : List PortalAction) : Prop where
  managed : Managed max q
  keeps : ∀ handle o o', p.getSession handle = some o → o.session.state = .started →
    q.getSession handle = some o' → o.Keeps o'
  selects : ∀ handle o' s, q.getSession handle = some o' →
    (∀ o, p.getSession handle = some o → s = o.selection) →
    actions.foldl (chosen handle) s = o'.selection

variable {actions : List PortalAction}

/-- Of the portal only the sessions and what was granted matter. -/
theorem Managed.Step.congr {q q' : PortalState} (h : Managed.Step max p q actions)
    (hmanager : q'.manager = q.manager) (hgrants : q'.grants = q.grants) :
    Managed.Step max p q' actions := by
  have hget : ∀ handle, q'.getSession handle = q.getSession handle := by
    intro handle
    rw [PortalState.getSession, PortalState.getSession, hmanager, hgrants]
  refine ⟨⟨hmanager ▸ h.managed.accounted, hmanager ▸ h.managed.limit, fun handle o ho => ?_⟩,
    ?_, ?_⟩
  · exact h.managed.sound handle o ((hget handle).symm.trans ho)
  · intro handle o o' ho hstarted ho'
    exact h.keeps handle o o' ho hstarted ((hget handle).symm.trans ho')
  · intro handle o' s ho'
    exact h.selects handle o' s ((hget handle).symm.trans ho')

/-- A step that does not look at the sessions. -/
theorem Managed.of_eq (h : Managed max p) {q : PortalState} (hidle : ∀ a ∈ actions, a.Idle)
    (hmanager : q.manager = p.manager) (hgrants : q.grants = p.grants) :
    Managed.Step max p q actions := by
  refine Managed.Step.congr ⟨h, fun handle o o' ho hstarted ho' => ?_, fun handle o' s ho' hs => ?_⟩
    hmanager hgrants
  · rw [← Option.some.inj (ho.symm.trans ho')]
    exact .refl o
  · rw [foldl_idle hidle]
    exact hs o' ho'

/-- A step after which the sessions that are left are what they were. -/
theorem Managed.of_removed (h : Managed max p) {closed : List Session} {manager : SessionManager}
    (hcloses : p.manager.Closes closed manager) {q : PortalState} (hidle : ∀ a ∈ actions, a.Idle)
    (hmanager : q.manager = manager) (hgrants : q.grants = p.grants) :
    Managed.Step max p q actions := by
  have hget : ∀ handle o, q.getSession handle = some o → p.getSession handle = some o := by
    intro handle o ho
    rw [PortalState.getSession, hmanager, hgrants] at ho
    obtain ⟨session, hsession, rfl⟩ := Option.map_eq_some_iff.mp ho
    have hin : handle ∈ manager.sessions := AList.lookup_isSome.mp (by rw [hsession]; rfl)
    rw [PortalState.getSession, ← hcloses.removed.kept handle hin, hsession]
    rfl
  refine ⟨⟨hmanager ▸ hcloses.accounted, hmanager ▸ hcloses.limit.trans h.limit,
    fun handle o ho => h.sound handle o (hget handle o ho)⟩, ?_, ?_⟩
  · rintro handle o o' ho - ho'
    rw [← Option.some.inj (ho.symm.trans (hget handle o' ho'))]
    exact .refl o
  · intro handle o' s ho' hs
    rw [foldl_idle hidle]
    exact hs o' (hget handle o' ho')

/-- The sessions after one of them was written back. -/
theorem getSession_store {handle : String} {o o' : Opened} (ho : p.getSession handle = some o)
    (hsame : o'.session = { o.session with state := o'.session.state }) (other : String) :
    (p.store handle o').getSession other =
      if other = handle then some o' else p.getSession other := by
  obtain ⟨session, hsession, rfl⟩ := Option.map_eq_some_iff.mp ho
  have hsession' : { session with
      state := o'.session.state, lastActivity := o'.session.lastActivity } = o'.session := by
    rw [hsame]
  have hamend : (p.manager.amend handle o'.session.state o'.session.lastActivity).sessions =
      p.manager.sessions.insert handle o'.session := by
    rw [SessionManager.amend, hsession]
    dsimp only
    rw [hsession']
  show ((p.manager.amend handle o'.session.state o'.session.lastActivity).sessions.lookup other).map
    (fun session => (⟨session, Function.update p.grants handle o'.grants other⟩ : Opened)) = _
  rw [hamend]
  by_cases hother : other = handle
  · rw [if_pos hother, hother, AList.lookup_insert, Function.update_self]
    rfl
  · rw [if_neg hother, AList.lookup_insert_ne hother, Function.update_of_ne hother]
    rfl

/-- A session is changed in place, and the others are not. -/
theorem Managed.store (h : Managed max p) {handle : String} {o o' : Opened}
    (ho : p.getSession handle = some o) (hchange : o.Changes o')
    (hown : actions.foldl (chosen handle) o.selection = o'.selection)
    (hothers : ∀ other ≠ handle, ∀ s, actions.foldl (chosen other) s = s) :
    Managed.Step max p (p.store handle o') actions := by
  obtain ⟨haccounted, hlimit, -⟩ :=
    h.accounted.amend handle o'.session.state o'.session.lastActivity
  have hget := getSession_store ho hchange.same
  refine ⟨⟨haccounted, hlimit.trans h.limit, fun other found hfound => ?_⟩, ?_, ?_⟩
  · rw [hget] at hfound
    split at hfound
    · rw [← Option.some.inj hfound]
      exact hchange.sound (h.sound handle o ho)
    · exact h.sound other found hfound
  · intro other found found' hfound hstarted hfound'
    rw [hget] at hfound'
    split at hfound'
    · rename_i hother
      rw [hother, ho] at hfound
      obtain rfl := Option.some.inj hfound
      rw [← Option.some.inj hfound']
      exact hchange.keeps hstarted
    · rw [← Option.some.inj (hfound.symm.trans hfound')]
      exact .refl found
  · intro other found s hfound hs
    rw [hget] at hfound
    split at hfound
    · rename_i hother
      rw [← Option.some.inj hfound, hother, hs o (hother ▸ ho)]
      exact hown
    · rename_i hother
      rw [hothers other hother]
      exact hs found hfound

/-- A new session has a handle of its own, and begins at the beginning. -/
theorem createSession_ok {m m' : SessionManager} {handle sender appId : String}
    {persistMode : PersistMode} {createdAt lastActivity : DateTime} {session : Session}
    (h : m.createSession handle sender appId persistMode createdAt lastActivity =
      (.ok session, m')) :
    handle ∉ m.sessions ∧ m'.sessions = m.sessions.insert handle session ∧
      session.state = .init ∧ m'.maxSessionsPerApp = m.maxSessionsPerApp := by
  rw [SessionManager.createSession] at h
  split at h
  · cases h
  split at h
  · cases h
  · rename_i hfree
    obtain ⟨hsession, rfl⟩ := Prod.mk.inj h
    obtain rfl := Except.ok.inj hsession
    exact ⟨hfree, rfl, rfl, rfl⟩

/-- A session that is refused leaves the manager as it was. -/
theorem createSession_error {m m' : SessionManager} {handle sender appId : String}
    {persistMode : PersistMode} {createdAt lastActivity : DateTime} {e : PortalError}
    (h : m.createSession handle sender appId persistMode createdAt lastActivity =
      (.error e, m')) : m' = m := by
  rw [SessionManager.createSession] at h
  split at h
  · exact (Prod.mk.inj h).2.symm
  split at h
  · exact (Prod.mk.inj h).2.symm
  · cases (Prod.mk.inj h).1

/-- A new session has selected nothing. -/
theorem Managed.create (h : Managed max p) {q : PortalState} {handle sender appId : String}
    {persistMode : PersistMode} {createdAt lastActivity : DateTime} {session : Session}
    (hcreate : p.manager.createSession handle sender appId persistMode createdAt lastActivity =
      (.ok session, q.manager))
    (hgrants : q.grants = Function.update p.grants handle (.new persistMode)) (call : PortalCall) :
    Managed.Step max p q [.answered call (.ok (.created handle))] := by
  obtain ⟨hfree, hsessions, hinit, hlimit⟩ := createSession_ok hcreate
  have haccounted := h.accounted.createSession handle sender appId persistMode createdAt
    lastActivity
  rw [hcreate] at haccounted
  have hget : ∀ other, q.getSession other =
      if other = handle then some ⟨session, .new persistMode⟩ else p.getSession other := by
    intro other
    rw [PortalState.getSession, PortalState.getSession, hsessions, hgrants]
    by_cases hother : other = handle
    · rw [if_pos hother, hother, AList.lookup_insert, Function.update_self]
      rfl
    · rw [if_neg hother, AList.lookup_insert_ne hother, Function.update_of_ne hother]
  refine ⟨⟨haccounted, hlimit.trans h.limit, fun other o ho => ?_⟩, ?_, ?_⟩
  · rw [hget] at ho
    split at ho
    · rw [← Option.some.inj ho]
      refine ⟨?_, fun hstarted => ?_, fun _ => rfl, fun _ => rfl, fun _ => rfl, rfl⟩
      · rw [hinit]
        exact SessionState.noConfusion
      · rw [hinit] at hstarted
        cases hstarted
    · exact h.sound other o ho
  · rintro other o o' ho - ho'
    rw [hget] at ho'
    split at ho'
    · rename_i hother
      rw [hother, PortalState.getSession, AList.lookup_eq_none.mpr hfree] at ho
      cases ho
    · rw [← Option.some.inj (ho.symm.trans ho')]
      exact .refl o
  · intro other o' s ho' hs
    rw [hget] at ho'
    show (if handle = other then (DeviceTypes.none, []) else s) = o'.selection
    split at ho'
    · rename_i hother
      rw [if_pos hother.symm, ← Option.some.inj ho']
      rfl
    · rename_i hother
      rw [if_neg (Ne.symm hother)]
      exact hs o' ho'

/-! ### Steps -/

/-- A call is validated against the session it is for. -/
theorem getSession_of_validated {r : Requested} {o : Opened} (h : p.validated r = .ok o) :
    p.getSession r.session = some o := by
  have h := mapError_eq_ok.mp h
  rw [PortalState.validateSession] at h
  split at h
  · cases h
  · rename_i found hfound
    obtain ⟨-, h⟩ := guard_eq_ok.mp h
    obtain ⟨-, h⟩ := guard_eq_ok.mp h
    rw [← Except.ok.inj h]
    exact hfound

theorem idle_nil : ∀ a ∈ ([] : List PortalAction), a.Idle := fun _ h => absurd h List.not_mem_nil

theorem idle_singleton {a : PortalAction} (ha : a.Idle) : ∀ b ∈ [a], b.Idle :=
  fun _ hb => List.mem_singleton.mp hb ▸ ha

/-- A call that is answered with an error selects nothing. -/
theorem idle_error (call : PortalCall) (leave : Leave) :
    ∀ a ∈ [PortalAction.answered call (.error leave)], a.Idle :=
  idle_singleton fun handle s => by rw [chosen.eq_def]

/-- The end of a call that has changed its session. -/
theorem Managed.answer (h : Managed max p) {call : PortalCall} {r : Requested}
    {result : Except Leave (Opened × Reply)}
    (hresult : ∀ o' reply, result = .ok (o', reply) →
      ∃ o, p.getSession r.session = some o ∧ o.Changes o' ∧
        chosen r.session o.selection (.answered call (.ok reply)) = o'.selection ∧
        ∀ other ≠ r.session, ∀ s, chosen other s (.answered call (.ok reply)) = s) :
    Managed.Step max p (p.answer call r result).1 (p.answer call r result).2 := by
  cases result with
  | error leave => exact h.of_eq (idle_error call leave) rfl rfl
  | ok done =>
    obtain ⟨o', reply⟩ := done
    obtain ⟨o, ho, hchange, hown, hothers⟩ := hresult o' reply rfl
    have hstep : Managed.Step max p _ [.answered call (.ok reply)] :=
      h.store ho hchange hown hothers
    exact hstep.congr rfl rfl

theorem mapStreams_manager (result : PortalState × List PortalAction) :
    (PortalState.mapStreams result).1.manager = result.1.manager ∧
      (PortalState.mapStreams result).1.grants = result.1.grants ∧
      (PortalState.mapStreams result).2 = result.2 := by
  rw [PortalState.mapStreams.eq_def]
  split <;> exact ⟨rfl, rfl, rfl⟩

section SelectSources

variable {r : Requested} {restoreData : Option RestoreData} {persistMode : PersistMode}
  {available : Except String (List SourceInfo)} {picked : List SourceInfo}

/-- What the sources of an accepted call are: those the picker chose, or those of the restore
data. -/
theorem selectSources_eq_ok {o' : Opened} {reply : Reply}
    (h : p.selectSources r restoreData persistMode available picked = .ok (o', reply)) :
    reply = .success ∧ ∃ o sources, available = .ok sources ∧ p.getSession r.session = some o ∧
      o.Changes o' ∧
      o'.selection = (o.grants.deviceTypes, restoredSources restoreData sources picked) := by
  obtain ⟨o, ho, h⟩ := bind_eq_ok.mp h
  obtain ⟨sources, hsources, h⟩ := bind_eq_ok.mp h
  obtain ⟨-, h⟩ := guard_eq_ok.mp h
  obtain ⟨changed, hchanged, h⟩ := bind_eq_ok.mp h
  obtain ⟨rfl, rfl⟩ := Prod.mk.inj (Except.ok.inj h)
  obtain ⟨hchange, hselection⟩ := selectSources_ok (mapError_eq_ok.mp hchanged)
  exact ⟨rfl, o, sources, mapError_eq_ok.mp hsources,
    getSession_of_validated (mapError_eq_ok.mp ho), hchange, hselection⟩

/-- A selection of sources that fails leaves the session as it was, up to the mode and the data. -/
theorem selectSources_eq_error {q : PortalState} {leave : Leave}
    (h : p.selectSources r restoreData persistMode available picked = .error (q, leave)) :
    q = p ∨ ∃ o, p.getSession r.session = some o ∧
      q = p.store r.session { o with grants := { o.grants with persistMode, restoreData } } := by
  rw [PortalState.selectSources] at h
  cases hvalid : p.validated r with
  | error fault =>
    rw [hvalid] at h
    exact .inl (Prod.mk.inj (Except.error.inj h)).1.symm
  | ok o =>
    rw [hvalid] at h
    cases available with
    | error message => exact .inl (Prod.mk.inj (Except.error.inj h)).1.symm
    | ok sources =>
      have h : (if sources = [] then Except.error (p, Leave.noSources)
        else ((Opened.selectSources { o with grants := { o.grants with persistMode, restoreData } }
          (restoredSources restoreData sources picked)).mapError fun fault => (p.store r.session
            { o with grants := { o.grants with persistMode, restoreData } }, .fault fault)).bind
          fun o => .ok (o, Reply.success)) = Except.error (q, leave) := h
      split at h
      · exact .inl (Prod.mk.inj (Except.error.inj h)).1.symm
      · refine .inr ⟨o, getSession_of_validated hvalid, ?_⟩
        cases hselect : Opened.selectSources
            { o with grants := { o.grants with persistMode, restoreData } }
            (restoredSources restoreData sources picked) with
        | error fault =>
          rw [hselect] at h
          exact (Prod.mk.inj (Except.error.inj h)).1.symm
        | ok changed =>
          rw [hselect] at h
          cases h

end SelectSources

/-- One call that has the session manager. -/
theorem Managed.locked (h : Managed max p) (call : PortalCall) :
    Managed.Step max p (p.locked call).1 (p.locked call).2 := by
  cases call with
  | createSession r persistMode createdAt lastActivity =>
    rw [PortalState.locked]
    split
    · rename_i session manager hcreate
      exact h.create hcreate rfl _
    · rename_i e manager hcreate
      exact h.of_eq (idle_singleton fun _ _ => rfl) (createSession_error hcreate) rfl
  | selectDevices r types =>
    refine h.answer fun o' reply hresult => ?_
    obtain ⟨o, ho, hresult⟩ := bind_eq_ok.mp hresult
    obtain ⟨changed, hchanged, hresult⟩ := bind_eq_ok.mp hresult
    obtain ⟨rfl, rfl⟩ := Prod.mk.inj (Except.ok.inj hresult)
    obtain ⟨hchange, hselection⟩ := selectDevices_ok (mapError_eq_ok.mp hchanged)
    refine ⟨o, getSession_of_validated ho, hchange, ?_, fun other hother s => ?_⟩
    · rw [hselection]
      exact if_pos rfl
    · exact if_neg hother.symm
  | selectSources r restoreData persistMode available picked =>
    rw [PortalState.locked]
    split
    · rename_i done hdone
      obtain ⟨o', reply⟩ := done
      obtain ⟨rfl, o, sources, rfl, ho, hchange, hselection⟩ := selectSources_eq_ok hdone
      refine h.answer fun changed reply hresult => ?_
      obtain ⟨rfl, rfl⟩ := Prod.mk.inj (Except.ok.inj hresult)
      refine ⟨o, ho, hchange, ?_, fun other hother s => ?_⟩
      · rw [hselection]
        exact if_pos rfl
      · exact if_neg hother.symm
    · rename_i q leave hleave
      have hidle := idle_error (.selectSources r restoreData persistMode available picked) leave
      obtain rfl | ⟨o, ho, rfl⟩ := selectSources_eq_error hleave
      · exact h.of_eq hidle rfl rfl
      · exact h.store ho (o.changes_written persistMode restoreData) (foldl_idle hidle _ _)
          fun other _ => foldl_idle hidle other
  | start r captured =>
    have hanswer : Managed.Step max p (p.answer (.start r captured) r (p.start r captured)).1
        (p.answer (.start r captured) r (p.start r captured)).2 := by
      refine h.answer fun o' reply hresult => ?_
      obtain ⟨o, ho, hresult⟩ := bind_eq_ok.mp hresult
      obtain ⟨streams, -, hresult⟩ := bind_eq_ok.mp hresult
      obtain ⟨started, hstarted, hresult⟩ := bind_eq_ok.mp hresult
      obtain ⟨rfl, rfl⟩ := Prod.mk.inj (Except.ok.inj hresult)
      obtain ⟨hchange, hselection⟩ := start_ok (mapError_eq_ok.mp hstarted)
      exact ⟨o, getSession_of_validated ho, hchange, hselection.symm, fun _ _ _ => rfl⟩
    obtain ⟨hmanager, hgrants, hactions⟩ :=
      mapStreams_manager (p.answer (.start r captured) r (p.start r captured))
    show Managed.Step max p _ (PortalState.mapStreams _).2
    rw [hactions]
    exact hanswer.congr hmanager hgrants
  | startCast r captured =>
    refine h.answer fun o' reply hresult => ?_
    obtain ⟨o, ho, hresult⟩ := bind_eq_ok.mp hresult
    obtain ⟨-, hresult⟩ := guard_eq_ok.mp hresult
    obtain ⟨streams, -, hresult⟩ := bind_eq_ok.mp hresult
    obtain ⟨started, hstarted, hresult⟩ := bind_eq_ok.mp hresult
    obtain ⟨rfl, rfl⟩ := Prod.mk.inj (Except.ok.inj hresult)
    obtain ⟨hchange, hselection⟩ := start_ok (mapError_eq_ok.mp hstarted)
    exact ⟨o, getSession_of_validated ho, hchange, hselection.symm, fun _ _ _ => rfl⟩
  | connectToEis session appId sender creation =>
    rw [PortalState.locked]
    split
    · exact h.of_eq (idle_error _ _) rfl rfl
    · exact h.of_eq (idle_singleton fun _ _ => rfl) rfl rfl
  | requestClipboard session =>
    rw [PortalState.locked]
    split
    · exact h.of_eq (idle_error _ _) rfl rfl
    rename_i o ho
    split
    · exact h.of_eq (idle_error _ _) rfl rfl
    · rename_i o' hchanged
      obtain ⟨hchange, hselection⟩ := requestClipboard_ok hchanged
      exact h.store ho hchange hselection.symm fun _ _ _ => rfl
  | notify session n =>
    rw [PortalState.locked]
    split
    · exact h.of_eq (idle_singleton fun _ _ => rfl) rfl rfl
    · exact h.of_eq (idle_singleton fun _ _ => rfl) rfl rfl
  | close session =>
    exact h.of_removed (h.accounted.closeSession session) (idle_singleton fun _ _ => rfl) rfl rfl
  | cancel session =>
    cases session with
    | none => exact h.of_eq idle_nil rfl rfl
    | some session =>
      exact h.of_removed (h.accounted.closeSession session) (idle_singleton fun _ _ => rfl) rfl rfl
  | disconnected sender =>
    exact h.of_removed (h.accounted.closeEach _) (idle_singleton fun _ _ => rfl) rfl rfl
  | cleanup now =>
    rw [PortalState.locked]
    split
    · exact h.of_eq idle_nil rfl rfl
    · rename_i closed manager hcleanup
      rw [SessionManager.cleanupStaleSessions] at hcleanup
      split_ifs at hcleanup
      obtain ⟨rfl, rfl⟩ := Prod.mk.inj (Option.some.inj hcleanup)
      exact h.of_removed (h.accounted.closeEach _) (idle_singleton fun _ _ => rfl) rfl rfl

/-- After the manager was given back no session changes. -/
theorem resume_manager (p : PortalState) (flush : InputEvent → Option String) (rest : Rest) :
    (p.resume flush rest).1.manager = p.manager ∧ (p.resume flush rest).1.grants = p.grants ∧
      ∀ a ∈ (p.resume flush rest).2.2, a.Idle := by
  cases rest with
  | inject session n =>
    rw [PortalState.resume]
    split
    · exact ⟨rfl, rfl, idle_singleton fun _ _ => rfl⟩
    · refine ⟨rfl, rfl, fun a ha => ?_⟩
      obtain ha | ha := List.mem_append.mp ha
      · obtain ⟨event, -, rfl⟩ := List.mem_map.mp ha
        exact fun _ _ => rfl
      · exact idle_singleton (fun _ _ => rfl) a ha
  | release sessions =>
    cases sessions with
    | nil => exact ⟨rfl, rfl, idle_nil⟩
    | cons session sessions => exact ⟨rfl, rfl, idle_nil⟩

/-- **Every step keeps the sessions in order.** -/
theorem managed_step (h : Managed max p) (i : PortalInput) :
    Managed.Step max p (portalBus.step p i).1 (portalBus.step p i).2 := by
  cases i with
  | arrive call =>
    refine h.of_eq idle_nil ?_ ?_
    · show (p.register call.request).manager = p.manager
      cases call.request <;> rfl
    · show (p.register call.request).grants = p.grants
      cases call.request <;> rfl
  | close handle =>
    simp only [portalBus]
    split
    · exact h.of_eq idle_nil rfl rfl
    · exact h.of_eq idle_nil rfl rfl
  | enter index =>
    simp only [portalBus]
    split
    · exact h.of_eq idle_nil rfl rfl
    split
    · exact h.of_eq idle_nil rfl rfl
    · rename_i call hcall
      have hless := (h.of_eq (q := { p with waiting := p.waiting.eraseIdx index }) idle_nil
        rfl rfl).managed
      have hlocked := hless.locked call
      exact ⟨hlocked.managed, hlocked.keeps, hlocked.selects⟩
  | resume index flush =>
    simp only [portalBus]
    split
    · exact h.of_eq idle_nil rfl rfl
    · rename_i rest hrest
      obtain ⟨hmanager, hgrants, hidle⟩ :=
        resume_manager { p with rests := p.rests.eraseIdx index } flush rest
      exact h.of_eq hidle hmanager hgrants

/-- What the sessions are after a run: in order, and with what the log selects for them. -/
structure Logged (max : ℕ) (p : PortalState) (log : List PortalAction) : Prop where
  managed : Managed max p
  selection : ∀ handle o, p.getSession handle = some o →
    log.foldl (chosen handle) (.none, []) = o.selection

/-- One input, whichever it is. -/
theorem Logged.step {log : List PortalAction} (h : Logged max p log) (i : PortalInput) :
    Logged max (portalBus.step p i).1 (log ++ (portalBus.step p i).2) where
  managed := (managed_step h.managed i).managed
  selection handle o ho := by
    rw [List.foldl_append]
    exact (managed_step h.managed i).selects handle o _ ho (h.selection handle)

/-- **Sessions on the bus.** After every run, in any interleaving of calls, each session is neither
closed nor without anything to share once it is started, and no EIS connection was ever recorded for
it. Its devices and its sources are those that were selected last since it was created, by calls
that were answered with success, and none if there was no such call. No application has more
sessions than the limit. Whatever comes next, a session that is started and not closed keeps its
devices, its sources and its streams. -/
theorem sessions_of_run (max : ℕ) (protocol : InputProtocol)
    (pointerManager keyboardManager seat : Bool) (keymap : UInt32 → Option UInt32)
    (inputs : List PortalInput) :
    let start := PortalState.initial max protocol pointerManager keyboardManager seat keymap
    let p := portalBus.exec start inputs
    (∀ handle o, p.getSession handle = some o → o.Sound ∧ o.session.id = handle ∧
      o.selection = (portalBus.trace start inputs).foldl (chosen handle) (.none, [])) ∧
    (∀ appId, p.manager.sessions.ofApp appId ≤ max) ∧
    ∀ i handle o o', p.getSession handle = some o → o.session.state = .started →
      (portalBus.step p i).1.getSession handle = some o' → o.Keeps o' := by
  intro start p
  have hempty : ∀ handle o, start.getSession handle ≠ some o := by
    intro handle o ho
    have ho : (AList.lookup handle (∅ : Sessions)).map _ = some o := ho
    rw [AList.lookup_empty] at ho
    cases ho
  have hinitial : Logged max start [] :=
    { managed := {
        accounted := .withConfig max
        limit := rfl
        sound := fun handle o ho => absurd ho (hempty handle o) }
      selection := fun handle o ho => absurd ho (hempty handle o) }
  have h : Logged max p (portalBus.trace start inputs) :=
    Machine.exec_log (I := Logged max) (fun _ i _ h => h.step i) hinitial inputs
  refine ⟨fun handle o ho => ⟨h.managed.sound handle o ho, ?_, (h.selection handle o ho).symm⟩,
    fun appId => ?_, fun i => (managed_step h.managed i).keeps⟩
  · obtain ⟨session, hsession, rfl⟩ := Option.map_eq_some_iff.mp ho
    exact h.managed.accounted.keyed handle session hsession
  · rw [← h.managed.limit]
    exact h.managed.accounted.limited appId

end Portal

end Cheirizo
