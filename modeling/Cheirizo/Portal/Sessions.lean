import Cheirizo.Clock
import Cheirizo.Lib.Machine
import Mathlib.Data.List.AList

/-!
# Portal sessions and their count

`src/desktop/portal/xdg_desktop/session`: the sessions of all applications are in one map, and a
second map says how many sessions each application has, so that a limit can be enforced without
looking at the first. Five operations maintain the two.

## Maps

The sessions are an association list without duplicate keys. It is enumerated in the order of the
list, which is not the order of a hash map; what is proved is about the sessions that an operation
returns and not about their order. The counts are only ever looked up.

A session has more fields than are here. The D-Bus methods change its state and its last activity in
place (`amend`), and never its handle, its sender or its application.

## Main definitions

* `SessionManager.createSession`, `closeSession`, `closeAppSessions`, `closeSenderSessions`,
  `cleanupStaleSessions`
* `SessionManager.Accounted` — the two maps agree, and the limit is kept

## Main results

* `Accounted.step` — every operation keeps the maps in agreement
* `sessions_accounted` — after every run, with what an operation may do there
-/

namespace Cheirizo

namespace Portal

/-! ### Sessions -/

/-- How long the selection of a session may be remembered. -/
inductive PersistMode where
  | none
  | persistent
  | transient
  deriving DecidableEq, Repr

/-- Where a session is in its life. -/
inductive SessionState where
  | init
  | started
  | closed
  deriving DecidableEq, Repr

/-- The fields of a session that the session manager looks at. -/
structure Session where
  id : String
  sender : String
  appId : String
  state : SessionState
  persistMode : PersistMode
  createdAt : DateTime
  lastActivity : DateTime
  deriving DecidableEq, Repr

namespace Session

/-- A new session. The clock is read twice. -/
def new (id sender appId : String) (createdAt lastActivity : DateTime) : Session :=
  ⟨id, sender, appId, .init, .none, createdAt, lastActivity⟩

/-- A session that was taken out is marked closed. -/
def close (s : Session) : Session := { s with state := .closed }

end Session

/-- Why a session cannot be made. -/
inductive PortalError where
  | invalidSession (message : String)
  | sessionLimitExceeded (appId : String) (max : ℕ)
  deriving DecidableEq, Repr

/-- The longest duration, in nanoseconds. -/
def maxDuration : ℕ := (2 ^ 64 - 1) * 1000000000 + 999999999

/-- The time since `earlier`, or zero if the clock was set back. -/
def elapsed (now earlier : DateTime) : ℕ := (now - earlier).toNat

/-! ### The manager -/

/-- Sessions by their handles. -/
abbrev Sessions := AList fun _ : String => Session

/-- How many of the sessions are of the application. -/
def Sessions.ofApp (sessions : Sessions) (appId : String) : ℕ :=
  sessions.entries.countP fun e => e.2.appId = appId

/-- The sessions by handle, and how many of them each application has. -/
structure SessionManager where
  sessions : Sessions
  appSessionCount : String → Option ℕ
  maxSessionsPerApp : ℕ

namespace SessionManager

/-- No sessions, and a limit for each application. -/
def withConfig (maxSessionsPerApp : ℕ) : SessionManager := ⟨∅, fun _ => none, maxSessionsPerApp⟩

/-- One session more would be too many. -/
def enforceSessionLimit (m : SessionManager) (appId : String) : Except PortalError Unit :=
  if m.maxSessionsPerApp ≤ (m.appSessionCount appId).getD 0 then
    .error (.sessionLimitExceeded appId m.maxSessionsPerApp)
  else .ok ()

/-- A session under a new handle, if the application may have one more. -/
def createSession (m : SessionManager) (handle sender appId : String) (persistMode : PersistMode)
    (createdAt lastActivity : DateTime) : Except PortalError Session × SessionManager :=
  match m.enforceSessionLimit appId with
  | .error e => (.error e, m)
  | .ok () =>
    if handle ∈ m.sessions then
      (.error (.invalidSession ("Session already exists: " ++ handle)), m)
    else
      let session := { Session.new handle sender appId createdAt lastActivity with persistMode }
      (.ok session, { m with
        appSessionCount := Function.update m.appSessionCount appId
          (some ((m.appSessionCount appId).getD 0 + 1))
        sessions := m.sessions.insert handle session })

/-- One session of the application fewer; a count of zero is removed. -/
def uncount (m : SessionManager) (appId : String) : SessionManager :=
  match m.appSessionCount appId with
  | none => m
  | some count => { m with
      appSessionCount := Function.update m.appSessionCount appId
        (if count - 1 = 0 then none else some (count - 1)) }

/-- The session is taken out and no longer counted. An unknown handle is no error. -/
def closeSession (m : SessionManager) (handle : String) : Option Session × SessionManager :=
  match m.sessions.lookup handle with
  | none => (none, m)
  | some session =>
    (some session.close, { m with sessions := m.sessions.erase handle }.uncount session.appId)

/-- The handles of the sessions to close. -/
def handles (m : SessionManager) (p : Session → Bool) : List String :=
  (m.sessions.entries.filter fun e => p e.2).map Sigma.fst

/-- Close the sessions with these handles, one after the other. -/
def closeEach (m : SessionManager) : List String → List Session × SessionManager
  | [] => ([], m)
  | handle :: rest =>
    let one := m.closeSession handle
    let next := closeEach one.2 rest
    (one.1.toList ++ next.1, next.2)

/-- Take the sessions with these handles out of the map, and leave the counts alone. -/
def takeEach (sessions : Sessions) : List String → List Session × Sessions
  | [] => ([], sessions)
  | handle :: rest =>
    let next := takeEach (sessions.erase handle) rest
    (((sessions.lookup handle).map Session.close).toList ++ next.1, next.2)

/-- The sessions of the application are closed, and its count is dropped as a whole. -/
def closeAppSessions (m : SessionManager) (appId : String) : List Session × SessionManager :=
  let taken := takeEach m.sessions (m.handles fun s => s.appId = appId)
  (taken.1, { m with
    sessions := taken.2
    appSessionCount := Function.update m.appSessionCount appId none })

/-- The sessions of a peer that has left the bus are taken out, one by one. -/
def closeSenderSessions (m : SessionManager) (sender : String) : List Session × SessionManager :=
  m.closeEach (m.handles fun s => s.sender = sender)

/-- A session that was never started is stale after `maxIdle`, and one that was after twice that
time without activity. -/
def isStale (maxIdle : ℕ) (now : DateTime) (s : Session) : Bool :=
  match s.state with
  | .init => maxIdle < elapsed now s.createdAt
  | .started => maxIdle * 2 < elapsed now s.lastActivity
  | .closed => true

/-- The stale sessions are closed. Doubling the time panics if it is too long for that, which is
found out at the first session that was started. -/
def cleanupStaleSessions (m : SessionManager) (maxIdle : ℕ) (now : DateTime) :
    Option (List Session × SessionManager) :=
  if maxDuration < maxIdle * 2 ∧ m.sessions.entries.any (fun e => e.2.state = .started) then none
  else some (m.closeEach (m.handles (isStale maxIdle now)))

/-- A session is changed in place. -/
def amend (m : SessionManager) (handle : String) (state : SessionState)
    (lastActivity : DateTime) : SessionManager :=
  match m.sessions.lookup handle with
  | none => m
  | some session =>
    { m with sessions := m.sessions.insert handle { session with state, lastActivity } }

end SessionManager

/-! ### Runs -/

/-- The methods of the session manager that change it. -/
inductive PortalOp where
  | createSession (handle sender appId : String) (persistMode : PersistMode)
      (createdAt lastActivity : DateTime)
  | closeSession (handle : String)
  | closeAppSessions (appId : String)
  | closeSenderSessions (sender : String)
  | cleanupStaleSessions (maxIdle : ℕ) (now : DateTime)
  | amend (handle : String) (state : SessionState) (lastActivity : DateTime)
  deriving DecidableEq, Repr

namespace SessionManager

/-- An operation, with the sessions it returns as closed. -/
def perform (m : SessionManager) : PortalOp → SessionManager × List Session
  | .createSession handle sender appId persistMode createdAt lastActivity =>
    ((m.createSession handle sender appId persistMode createdAt lastActivity).2, [])
  | .closeSession handle => ((m.closeSession handle).2, (m.closeSession handle).1.toList)
  | .closeAppSessions appId => ((m.closeAppSessions appId).2, (m.closeAppSessions appId).1)
  | .closeSenderSessions sender =>
    ((m.closeSenderSessions sender).2, (m.closeSenderSessions sender).1)
  | .cleanupStaleSessions maxIdle now =>
    match m.cleanupStaleSessions maxIdle now with
    | none => (m, [])
    | some (closed, m) => (m, closed)
  | .amend handle state lastActivity => (m.amend handle state lastActivity, [])

end SessionManager

/-- The session manager, with the sessions it closes as outputs. -/
def portalMachine : Machine SessionManager PortalOp Session where
  step := SessionManager.perform

/-! ### Counting -/

namespace Sessions

variable {sessions : Sessions} {handle : String} {session : Session}

theorem ofApp_insert (sessions : Sessions) (handle : String) (session : Session) (appId : String) :
    ofApp (sessions.insert handle session) appId =
      ofApp (sessions.erase handle) appId + if session.appId = appId then 1 else 0 := by
  rw [ofApp, AList.entries_insert, List.countP_cons]
  simp only [decide_eq_true_eq]
  rfl

/-- A session that is taken out was counted once. -/
theorem ofApp_erase (h : sessions.lookup handle = some session) (appId : String) :
    ofApp sessions appId =
      ofApp (sessions.erase handle) appId + if session.appId = appId then 1 else 0 := by
  have hmem : handle ∈ sessions.entries.keys := AList.lookup_isSome.mp (by rw [h]; rfl)
  obtain ⟨found, before, after, -, hentries, herase⟩ := List.exists_of_kerase hmem
  have hfound : found = session := by
    have hlookup : sessions.lookup handle = some found := by
      refine AList.mem_lookup_iff.mpr ?_
      rw [hentries]
      simp
    exact Option.some.inj (hlookup.symm.trans h)
  subst hfound
  have heq : (sessions.erase handle).entries = before ++ after := herase
  rw [ofApp, ofApp, hentries, heq]
  simp only [List.countP_append, List.countP_cons, decide_eq_true_eq]
  omega

theorem ofApp_eq_zero {appId : String}
    (h : ∀ handle session, sessions.lookup handle = some session → session.appId ≠ appId) :
    ofApp sessions appId = 0 := by
  rw [ofApp, List.countP_eq_zero]
  rintro ⟨handle, session⟩ he
  simpa using h handle session (AList.mem_lookup_iff.mpr he)

end Sessions

/-! ### Removing sessions -/

/-- The sessions are known by their own handles. -/
def Keyed (sessions : Sessions) : Prop :=
  ∀ handle session, sessions.lookup handle = some session → session.id = handle

/-- What is removed is returned, once and as closed; the rest stays. -/
structure Removed (before : Sessions) (closed : List Session) (after : Sessions) : Prop where
  stored : ∀ s ∈ closed, ∃ session, before.lookup s.id = some session ∧ s = session.close
  nodup : (closed.map Session.id).Nodup
  returned : ∀ handle, handle ∈ closed.map Session.id ↔ handle ∈ before ∧ handle ∉ after
  kept : ∀ handle ∈ after, after.lookup handle = before.lookup handle

namespace Removed

variable {before between after : Sessions} {closed closed' : List Session}

theorem refl (sessions : Sessions) : Removed sessions [] sessions where
  stored := by simp
  nodup := List.nodup_nil
  returned := by simp
  kept := fun _ _ => rfl

theorem mem (h : Removed before closed after) {handle : String} (hafter : handle ∈ after) :
    handle ∈ before := by
  rw [← AList.lookup_isSome, ← h.kept handle hafter, AList.lookup_isSome]
  exact hafter

theorem keyed (h : Removed before closed after) (hkeyed : Keyed before) : Keyed after := by
  intro handle session hlookup
  have hmem : handle ∈ after := AList.lookup_isSome.mp (by rw [hlookup]; rfl)
  exact hkeyed handle session ((h.kept handle hmem).symm.trans hlookup)

theorem trans (h : Removed before closed between) (h' : Removed between closed' after) :
    Removed before (closed ++ closed') after where
  stored s hs := by
    rcases List.mem_append.mp hs with hs | hs
    · exact h.stored s hs
    · obtain ⟨session, hlookup, hclose⟩ := h'.stored s hs
      have hmem : s.id ∈ between := AList.lookup_isSome.mp (by rw [hlookup]; rfl)
      exact ⟨session, (h.kept s.id hmem).symm.trans hlookup, hclose⟩
  nodup := by
    rw [List.map_append, List.nodup_append]
    refine ⟨h.nodup, h'.nodup, ?_⟩
    rintro handle hfirst handle' hsecond rfl
    exact ((h.returned handle).mp hfirst).2 ((h'.returned handle).mp hsecond).1
  returned handle := by
    rw [List.map_append, List.mem_append, h.returned, h'.returned]
    by_cases hbetween : handle ∈ between
    · have hbefore := h.mem hbetween
      simp [hbetween, hbefore]
    · have hafter : handle ∉ after := fun hmem => hbetween (h'.mem hmem)
      simp [hbetween, hafter]
  kept handle hafter := (h'.kept handle hafter).trans (h.kept handle (h'.mem hafter))

/-- One session is taken out of the map. -/
theorem erase (hkeyed : Keyed before) (handle : String) :
    Removed before ((before.lookup handle).map Session.close).toList (before.erase handle) := by
  have hkept : ∀ h ∈ before.erase handle, (before.erase handle).lookup h = before.lookup h := by
    intro h hmem
    exact AList.lookup_erase_ne (AList.mem_erase.mp hmem).1
  cases hlookup : before.lookup handle with
  | none =>
    have hnot : handle ∉ before := AList.lookup_eq_none.mp hlookup
    refine ⟨by simp, List.nodup_nil, ?_, hkept⟩
    intro h
    rw [AList.mem_erase]
    constructor
    · intro hmem
      cases hmem
    · rintro ⟨hmem, hgone⟩
      exact absurd ⟨fun heq => hnot (heq ▸ hmem), hmem⟩ hgone
  | some session =>
    have hid : session.close.id = handle := hkeyed handle session hlookup
    have hin : handle ∈ before := AList.lookup_isSome.mp (by rw [hlookup]; rfl)
    refine ⟨?_, by simp, ?_, hkept⟩
    · intro s hs
      obtain rfl : s = session.close := by simpa using hs
      exact ⟨session, hid.symm ▸ hlookup, rfl⟩
    · intro h
      simp only [Option.map_some, Option.toList_some, List.map_cons, List.map_nil,
        List.mem_singleton, hid, AList.mem_erase, not_and]
      constructor
      · rintro rfl
        exact ⟨hin, fun hne => absurd rfl hne⟩
      · rintro ⟨hmem, hgone⟩
        by_contra hne
        exact hgone hne hmem

end Removed

/-! ### The maps agree -/

namespace SessionManager

/-- The two maps agree, and the limit is kept. -/
structure Accounted (m : SessionManager) : Prop where
  keyed : Keyed m.sessions
  counted : ∀ appId, (m.appSessionCount appId).getD 0 = m.sessions.ofApp appId
  limited : ∀ appId, m.sessions.ofApp appId ≤ m.maxSessionsPerApp

variable {m : SessionManager}

theorem Accounted.withConfig (max : ℕ) : (withConfig max).Accounted where
  keyed handle session h := by
    rw [SessionManager.withConfig, AList.lookup_empty] at h
    cases h
  counted _ := rfl
  limited _ := Nat.zero_le _

/-- A session is created if the count is below the limit and the handle is free; else nothing
happens. -/
theorem createSession_cases (m : SessionManager) (handle sender appId : String)
    (persistMode : PersistMode) (createdAt lastActivity : DateTime) :
    (∃ e, m.createSession handle sender appId persistMode createdAt lastActivity = (.error e, m)) ∨
    ∃ session, session.id = handle ∧ session.appId = appId ∧ handle ∉ m.sessions ∧
      (m.appSessionCount appId).getD 0 < m.maxSessionsPerApp ∧
      m.createSession handle sender appId persistMode createdAt lastActivity =
        (.ok session, { m with
          appSessionCount := Function.update m.appSessionCount appId
            (some ((m.appSessionCount appId).getD 0 + 1))
          sessions := m.sessions.insert handle session }) := by
  rw [createSession, enforceSessionLimit]
  by_cases hlimit : m.maxSessionsPerApp ≤ (m.appSessionCount appId).getD 0
  · rw [if_pos hlimit]
    exact .inl ⟨_, rfl⟩
  · rw [if_neg hlimit]
    dsimp only
    split_ifs with hexists
    · exact .inl ⟨_, rfl⟩
    · exact .inr ⟨_, rfl, rfl, hexists, Nat.lt_of_not_le hlimit, rfl⟩

theorem Accounted.createSession (h : m.Accounted) (handle sender appId : String)
    (persistMode : PersistMode) (createdAt lastActivity : DateTime) :
    (m.createSession handle sender appId persistMode createdAt lastActivity).2.Accounted := by
  obtain ⟨e, hm⟩ | ⟨session, rfl, rfl, hfree, hlimit, hm⟩ :=
    m.createSession_cases handle sender appId persistMode createdAt lastActivity
  · rw [hm]
    exact h
  · have hcount : ∀ appId, Sessions.ofApp (m.sessions.insert session.id session) appId =
        m.sessions.ofApp appId + if session.appId = appId then 1 else 0 := by
      intro appId
      rw [Sessions.ofApp, AList.entries_insert_of_notMem hfree, List.countP_cons]
      simp only [decide_eq_true_eq]
      rfl
    rw [hm]
    constructor
    · intro handle found hfound
      by_cases heq : handle = session.id
      · subst heq
        rw [AList.lookup_insert] at hfound
        rw [← Option.some.inj hfound]
      · rw [AList.lookup_insert_ne heq] at hfound
        exact h.keyed handle found hfound
    · intro appId
      rw [hcount, ← h.counted]
      dsimp only
      by_cases heq : session.appId = appId
      · subst heq
        rw [Function.update_self, if_pos rfl, Option.getD_some]
      · rw [Function.update_of_ne (Ne.symm heq), if_neg heq, Nat.add_zero]
    · intro appId
      have hle := h.limited appId
      rw [hcount]
      split_ifs with heq
      · subst heq
        rw [h.counted] at hlimit
        exact hlimit
      · exact hle

@[simp] theorem uncount_sessions (m : SessionManager) (appId : String) :
    (m.uncount appId).sessions = m.sessions := by
  rw [uncount]
  split <;> rfl

@[simp] theorem uncount_maxSessionsPerApp (m : SessionManager) (appId : String) :
    (m.uncount appId).maxSessionsPerApp = m.maxSessionsPerApp := by
  rw [uncount]
  split <;> rfl

theorem uncount_appSessionCount (m : SessionManager) (appId other : String) :
    ((m.uncount appId).appSessionCount other).getD 0 =
      (m.appSessionCount other).getD 0 - if appId = other then 1 else 0 := by
  rw [uncount]
  by_cases heq : appId = other
  · subst heq
    cases hcount : m.appSessionCount appId with
    | none => simp [hcount]
    | some count =>
      by_cases hone : count - 1 = 0
      · simp [hone]
      · simp [hone]
  · rw [if_neg heq, Nat.sub_zero]
    cases m.appSessionCount appId with
    | none => rfl
    | some count => simp [Function.update_of_ne (Ne.symm heq)]

/-- What closing sessions must do to a manager. -/
structure Closes (m : SessionManager) (closed : List Session) (m' : SessionManager) : Prop where
  removed : Removed m.sessions closed m'.sessions
  accounted : m'.Accounted
  limit : m'.maxSessionsPerApp = m.maxSessionsPerApp

theorem Accounted.closeSession (h : m.Accounted) (handle : String) :
    m.Closes (m.closeSession handle).1.toList (m.closeSession handle).2 := by
  rw [SessionManager.closeSession]
  cases hlookup : m.sessions.lookup handle with
  | none => exact ⟨.refl _, h, rfl⟩
  | some session =>
    have hremoved := Removed.erase h.keyed handle
    rw [hlookup] at hremoved
    have hcount := Sessions.ofApp_erase hlookup
    refine ⟨by rw [uncount_sessions]; exact hremoved, ⟨?_, ?_, ?_⟩, uncount_maxSessionsPerApp ..⟩
    · rw [uncount_sessions]
      exact hremoved.keyed h.keyed
    · intro appId
      rw [uncount_appSessionCount, uncount_sessions, h.counted, hcount appId]
      exact Nat.add_sub_cancel _ _
    · intro appId
      have hle := h.limited appId
      rw [hcount appId] at hle
      rw [uncount_sessions, uncount_maxSessionsPerApp]
      exact (Nat.le_add_right _ _).trans hle

theorem Accounted.closeEach (h : m.Accounted) (handles : List String) :
    m.Closes (m.closeEach handles).1 (m.closeEach handles).2 := by
  induction handles generalizing m with
  | nil => exact ⟨.refl _, h, rfl⟩
  | cons handle rest ih =>
    obtain ⟨hone, haccounted, hlimit⟩ := h.closeSession handle
    obtain ⟨hrest, haccounted', hlimit'⟩ := ih haccounted
    exact ⟨hone.trans hrest, haccounted', hlimit'.trans hlimit⟩

/-- Sessions that are taken out are all of the application, if their handles are. -/
theorem takeEach_spec {sessions : Sessions} (hkeyed : Keyed sessions) {appId : String}
    {handles : List String} (happ : ∀ handle ∈ handles, ∀ session,
      sessions.lookup handle = some session → session.appId = appId) :
    Removed sessions (takeEach sessions handles).1 (takeEach sessions handles).2 ∧
      (∀ handle ∈ handles, handle ∉ (takeEach sessions handles).2) ∧
      ∀ other ≠ appId,
        Sessions.ofApp (takeEach sessions handles).2 other = sessions.ofApp other := by
  induction handles generalizing sessions with
  | nil => exact ⟨.refl _, by simp, fun _ _ => rfl⟩
  | cons handle rest ih =>
    have hone := Removed.erase hkeyed handle
    obtain ⟨hrest, hgone, hother⟩ := ih (hone.keyed hkeyed) (by
      intro handle' hmem session hlookup
      have hin : handle' ∈ sessions.erase handle := AList.lookup_isSome.mp (by rw [hlookup]; rfl)
      exact happ handle' (List.mem_cons_of_mem _ hmem) session
        ((hone.kept handle' hin).symm.trans hlookup))
    refine ⟨hone.trans hrest, ?_, ?_⟩
    · intro handle' hmem
      rcases List.mem_cons.mp hmem with rfl | hmem
      · intro hin
        exact (AList.mem_erase.mp (hrest.mem hin)).1 rfl
      · exact hgone handle' hmem
    · intro other hne
      refine (hother other hne).trans ?_
      cases hlookup : sessions.lookup handle with
      | none =>
        have hnot : handle ∉ sessions.entries.keys := AList.lookup_eq_none.mp hlookup
        rw [Sessions.ofApp, Sessions.ofApp]
        exact congrArg _ (List.kerase_of_notMem_keys hnot)
      | some session =>
        have hsession := happ handle (List.mem_cons_self ..) session hlookup
        rw [Sessions.ofApp_erase hlookup other, if_neg (hsession ▸ hne.symm), Nat.add_zero]

theorem mem_handles {p : Session → Bool} {handle : String} :
    handle ∈ m.handles p ↔
      ∃ session, m.sessions.lookup handle = some session ∧ p session = true := by
  rw [handles, List.mem_map]
  constructor
  · rintro ⟨⟨handle, session⟩, he, rfl⟩
    obtain ⟨hmem, hp⟩ := List.mem_filter.mp he
    exact ⟨session, AList.mem_lookup_iff.mpr hmem, hp⟩
  · rintro ⟨session, hlookup, hp⟩
    exact ⟨⟨handle, session⟩, List.mem_filter.mpr ⟨AList.mem_lookup_iff.mp hlookup, hp⟩, rfl⟩

/-- Dropping the whole count is right because all the sessions it counts are closed. -/
theorem Accounted.closeAppSessions (h : m.Accounted) (appId : String) :
    m.Closes (m.closeAppSessions appId).1 (m.closeAppSessions appId).2 := by
  have hall : ∀ handle ∈ m.handles (fun s => s.appId = appId), ∀ session,
      m.sessions.lookup handle = some session → session.appId = appId := by
    intro handle hmem session hlookup
    obtain ⟨found, hfound, happ⟩ := mem_handles.mp hmem
    obtain rfl := Option.some.inj (hfound.symm.trans hlookup)
    exact of_decide_eq_true happ
  obtain ⟨hremoved, hgone, hother⟩ := takeEach_spec h.keyed hall
  have hzero : Sessions.ofApp (m.closeAppSessions appId).2.sessions appId = 0 := by
    refine Sessions.ofApp_eq_zero ?_
    intro handle session hlookup happ
    have hin : handle ∈ (m.closeAppSessions appId).2.sessions :=
      AList.lookup_isSome.mp (by rw [hlookup]; rfl)
    refine hgone handle (mem_handles.mpr ⟨session, ?_, decide_eq_true happ⟩) hin
    exact (hremoved.kept handle hin).symm.trans hlookup
  refine ⟨hremoved, ⟨hremoved.keyed h.keyed, ?_, ?_⟩, rfl⟩
  · intro other
    by_cases heq : other = appId
    · subst heq
      have hnone : (m.closeAppSessions other).2.appSessionCount other = none := by
        show Function.update m.appSessionCount other none other = none
        rw [Function.update_self]
      rw [hzero, hnone]
      rfl
    · have hsame : (m.closeAppSessions appId).2.appSessionCount other =
          m.appSessionCount other := by
        show Function.update m.appSessionCount appId none other = m.appSessionCount other
        rw [Function.update_of_ne heq]
      rw [hsame]
      exact (h.counted other).trans (hother other heq).symm
  · intro other
    by_cases heq : other = appId
    · subst heq
      rw [hzero]
      exact Nat.zero_le _
    · exact (hother other heq).trans_le (h.limited other)

theorem Accounted.amend (h : m.Accounted) (handle : String) (state : SessionState)
    (lastActivity : DateTime) :
    (m.amend handle state lastActivity).Accounted ∧
      (m.amend handle state lastActivity).maxSessionsPerApp = m.maxSessionsPerApp ∧
      ∀ handle', handle' ∈ (m.amend handle state lastActivity).sessions ↔ handle' ∈ m.sessions := by
  rw [SessionManager.amend]
  cases hlookup : m.sessions.lookup handle with
  | none => exact ⟨h, rfl, fun _ => Iff.rfl⟩
  | some session =>
    have hcount : ∀ appId, Sessions.ofApp
        (m.sessions.insert handle { session with state, lastActivity }) appId =
          m.sessions.ofApp appId := by
      intro appId
      rw [Sessions.ofApp_insert, Sessions.ofApp_erase hlookup]
    refine ⟨⟨?_, ?_, ?_⟩, rfl, ?_⟩
    · intro handle' found hfound
      by_cases heq : handle' = handle
      · subst heq
        rw [AList.lookup_insert] at hfound
        rw [← Option.some.inj hfound]
        exact h.keyed handle' session hlookup
      · rw [AList.lookup_insert_ne heq] at hfound
        exact h.keyed handle' found hfound
    · exact fun appId => (h.counted appId).trans (hcount appId).symm
    · exact fun appId => (hcount appId).trans_le (h.limited appId)
    · intro handle'
      rw [AList.mem_insert]
      constructor
      · rintro (rfl | hmem)
        · exact AList.lookup_isSome.mp (by rw [hlookup]; rfl)
        · exact hmem
      · exact .inr

/-- What an operation may do: the maps agree again, and what is removed is returned, once and as
closed. -/
structure Performed (m : SessionManager) (closed : List Session) (m' : SessionManager) : Prop where
  accounted : m'.Accounted
  limit : m'.maxSessionsPerApp = m.maxSessionsPerApp
  stored : ∀ s ∈ closed, s.state = .closed ∧
    ∃ session, m.sessions.lookup s.id = some session ∧ s = session.close
  nodup : (closed.map Session.id).Nodup
  returned : ∀ handle, handle ∈ closed.map Session.id ↔ handle ∈ m.sessions ∧ handle ∉ m'.sessions

theorem Closes.performed {closed : List Session} {m' : SessionManager} (h : m.Closes closed m') :
    m.Performed closed m' where
  accounted := h.accounted
  limit := h.limit
  stored s hs := by
    obtain ⟨session, hlookup, rfl⟩ := h.removed.stored s hs
    exact ⟨rfl, session, hlookup, rfl⟩
  nodup := h.removed.nodup
  returned := h.removed.returned

/-- An operation that removes nothing. -/
theorem Performed.of_kept {m' : SessionManager} (h : m'.Accounted)
    (hlimit : m'.maxSessionsPerApp = m.maxSessionsPerApp)
    (hkept : ∀ handle ∈ m.sessions, handle ∈ m'.sessions) : m.Performed [] m' where
  accounted := h
  limit := hlimit
  stored := by simp
  nodup := List.nodup_nil
  returned handle := by
    constructor
    · intro hmem
      cases hmem
    · rintro ⟨hmem, hgone⟩
      exact absurd (hkept handle hmem) hgone

/-- **Every operation keeps the maps in agreement.** -/
theorem Accounted.step (h : m.Accounted) (op : PortalOp) :
    m.Performed (m.perform op).2 (m.perform op).1 := by
  cases op with
  | createSession handle sender appId persistMode createdAt lastActivity =>
    have haccounted := h.createSession handle sender appId persistMode createdAt lastActivity
    rw [perform]
    obtain ⟨e, hm⟩ | ⟨session, -, -, -, -, hm⟩ :=
      m.createSession_cases handle sender appId persistMode createdAt lastActivity
    · rw [hm] at haccounted ⊢
      exact .of_kept haccounted rfl fun _ => id
    · rw [hm] at haccounted ⊢
      exact .of_kept haccounted rfl fun handle' hmem => (AList.mem_insert _).mpr (.inr hmem)
  | closeSession handle => exact (h.closeSession handle).performed
  | closeAppSessions appId => exact (h.closeAppSessions appId).performed
  | closeSenderSessions sender => exact (h.closeEach _).performed
  | cleanupStaleSessions maxIdle now =>
    rw [perform]
    cases hcleanup : m.cleanupStaleSessions maxIdle now with
    | none => exact .of_kept h rfl fun _ => id
    | some result =>
      rw [cleanupStaleSessions] at hcleanup
      split_ifs at hcleanup
      obtain rfl := Option.some.inj hcleanup
      exact (h.closeEach _).performed
  | amend handle state lastActivity =>
    obtain ⟨haccounted, hlimit, hmem⟩ := h.amend handle state lastActivity
    exact .of_kept haccounted hlimit fun handle' => (hmem handle').mpr

theorem Accounted.nodup_ids (h : m.Accounted) :
    (m.sessions.entries.map fun e => e.2.id).Nodup := by
  have hids : (m.sessions.entries.map fun e => e.2.id) = m.sessions.keys := by
    refine List.map_congr_left ?_
    rintro ⟨handle, session⟩ he
    exact h.keyed handle session (AList.mem_lookup_iff.mpr he)
  rw [hids]
  exact m.sessions.keys_nodup

end SessionManager

/-- **The counts are right.** After every sequence of operations the count of an application is the
number of its sessions and within the limit, and no two sessions have one handle. From there, a
session that cannot be created leaves the manager as it is, and an operation returns the sessions it
removes, each of them once and as closed. -/
theorem sessions_accounted (max : ℕ) (ops : List PortalOp) :
    let m := portalMachine.exec (.withConfig max) ops
    (∀ appId, (m.appSessionCount appId).getD 0 = m.sessions.ofApp appId ∧
      (m.appSessionCount appId).getD 0 ≤ max) ∧
    (m.sessions.entries.map fun e => e.2.id).Nodup ∧
    (∀ handle sender appId persistMode createdAt lastActivity e,
      (m.createSession handle sender appId persistMode createdAt lastActivity).1 = .error e →
        (m.createSession handle sender appId persistMode createdAt lastActivity).2 = m) ∧
    ∀ op, m.Performed (m.perform op).2 (m.perform op).1 := by
  intro m
  have h : m.Accounted ∧ m.maxSessionsPerApp = max := by
    refine Machine.exec_invariant
      (I := fun m : SessionManager => m.Accounted ∧ m.maxSessionsPerApp = max)
      (C := fun _ _ => True) ?_ ⟨.withConfig max, rfl⟩ Machine.along_true
    rintro m op ⟨haccounted, hmax⟩ -
    have hstep := haccounted.step op
    exact ⟨hstep.accounted, hstep.limit.trans hmax⟩
  obtain ⟨haccounted, hmax⟩ := h
  refine ⟨?_, haccounted.nodup_ids, ?_, fun op => haccounted.step op⟩
  · intro appId
    have hcounted := haccounted.counted appId
    have hlimited := haccounted.limited appId
    rw [hmax] at hlimited
    exact ⟨hcounted, hcounted.trans_le hlimited⟩
  · intro handle sender appId persistMode createdAt lastActivity e he
    obtain ⟨e', hm⟩ | ⟨session, -, -, -, -, hm⟩ :=
      m.createSession_cases handle sender appId persistMode createdAt lastActivity
    · rw [hm]
    · rw [hm] at he
      cases he

end Portal

end Cheirizo
