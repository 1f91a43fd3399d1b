import Cheirizo.Lib.Fallible
import Cheirizo.Portal.Lifecycle

/-!
# Request objects

A call puts an object on the bus that stands for its session, so that it can be cancelled. The
object is put there before the session is looked at, and taken off at the end of the call, which a
call that fails does not reach. Closing the object closes the session and asks nobody.

## Handles

The handle of an object is chosen by the caller. Two calls with the same handle would share an
object, and the first to end would take it from the other, so the results are about runs in which
every handle is used once.

## Main definitions

* `arrived` — the calls of a run
* `Requesting` — which calls the objects on the bus are of

## Main results

* `requests_iff` — the request objects after every run
* `cancelled_by_refused` — what a call that was refused can still do
-/

namespace Cheirizo

namespace Portal

/-! ### Handles -/

/-- The handle of the request object that a call puts on the bus. -/
def PortalCall.handle (call : PortalCall) : Option String :=
  call.request.map Prod.fst

/-- The handles of calls, as far as they come with one. -/
def handles (calls : List PortalCall) : List String :=
  calls.filterMap PortalCall.handle

/-- The calls that arrive. -/
def arrived (inputs : List PortalInput) : List PortalCall :=
  inputs.filterMap fun
    | .arrive call => some call
    | _ => none

/-- A call that puts a request on the bus names its handle. -/
theorem handle_of_request {call : PortalCall} {handle : String} {target : Option String}
    (h : call.request = some (handle, target)) : call.handle = some handle := by
  rw [PortalCall.handle, h]
  rfl

/-- The handles of a run are those its calls name. -/
theorem mem_handles {calls : List PortalCall} {call : PortalCall} {handle : String}
    (hcall : call ∈ calls) (h : call.handle = some handle) : handle ∈ handles calls :=
  List.mem_filterMap.mpr ⟨call, hcall, h⟩

/-- A handle belongs to one call. -/
theorem eq_of_handle {calls : List PortalCall} (hunique : (handles calls).Nodup)
    {call call' : PortalCall} (hcall : call ∈ calls) (hcall' : call' ∈ calls) {handle : String}
    (h : call.handle = some handle) (h' : call'.handle = some handle) : call = call' := by
  have hpair : calls.Pairwise fun a b =>
      a.handle = some handle → b.handle = some handle → a = b :=
    (List.pairwise_filterMap.mp hunique).imp fun hab ha hb => absurd rfl (hab _ ha _ hb)
  exact hpair.forall_of_forall_of_flip (fun _ _ _ _ => rfl)
    (hpair.imp fun hab hb ha => (hab ha hb).symm) hcall hcall' h h'

/-! ### One call -/

variable {p : PortalState}

/-- What a call does to the objects on the bus: it leaves them as they are, or takes its own off. -/
inductive RequestStep (p : PortalState) (call : PortalCall) :
    PortalState × List PortalAction → Prop
  | silent (q : PortalState) (actions : List PortalAction) (hcall : call.request = none)
      (hrequests : q.requests = p.requests) (hwaiting : q.waiting = p.waiting)
      (hactions : ∀ other result, .answered other result ∈ actions → other = call) :
      RequestStep p call (q, actions)
  | left (q : PortalState) (leave : Leave) (hrequests : q.requests = p.requests)
      (hwaiting : q.waiting = p.waiting) :
      RequestStep p call (q, [.answered call (.error leave)])
  | ended (q : PortalState) (reply : Reply) (handle : String) (target : Option String)
      (hcall : call.request = some (handle, target))
      (hrequests : q.requests = Function.update p.requests handle none)
      (hwaiting : q.waiting = p.waiting) : RequestStep p call (q, [.answered call (.ok reply)])

/-- An answer of success takes the object of the call off the bus, and an error leaves it there. -/
theorem RequestStep.answer {call : PortalCall} {r : Requested} {target : Option String}
    (hcall : call.request = some (r.handle, target)) (result : Except Leave (Opened × Reply)) :
    RequestStep p call (p.answer call r result) := by
  cases result with
  | error leave => exact .left p leave rfl rfl
  | ok done => exact .ended _ done.2 r.handle target hcall rfl rfl

/-- The streams that a start is answered with change nothing of this. -/
theorem RequestStep.start {call : PortalCall} {result : PortalState × List PortalAction}
    (h : RequestStep p call result) : RequestStep p call (PortalState.mapStreams result) := by
  rw [PortalState.mapStreams.eq_def]
  split
  · rename_i q other results
    cases h with
    | silent _ _ hcall hrequests hwaiting hactions =>
      exact .silent _ _ hcall hrequests hwaiting hactions
    | ended _ _ handle target hcall hrequests hwaiting =>
      exact .ended _ _ handle target hcall hrequests hwaiting
  · exact h

theorem not_answered_singleton {a : PortalAction} (ha : ∀ call result, a ≠ .answered call result)
    (call other : PortalCall) (result : Except Leave Reply)
    (h : .answered other result ∈ [a]) : other = call :=
  absurd (List.mem_singleton.mp h).symm (ha other result)

/-- A call that has the session manager takes its own object off the bus, or leaves all of them. -/
theorem requestStep (p : PortalState) (call : PortalCall) :
    RequestStep p call (p.locked call) := by
  have hnil : ∀ other result, PortalAction.answered other result ∈ [] → other = call :=
    fun _ _ h => absurd h List.not_mem_nil
  have hself : ∀ (r : Except Leave Reply) other result,
      PortalAction.answered other result ∈ [.answered call r] → other = call := by
    intro r other result h
    exact (PortalAction.answered.inj (List.mem_singleton.mp h)).1
  cases call with
  | createSession r persistMode createdAt lastActivity =>
    rw [PortalState.locked]
    split
    · exact .ended _ _ r.handle none rfl rfl rfl
    · exact .ended _ _ r.handle none rfl rfl rfl
  | selectDevices r types => exact .answer rfl _
  | selectSources r restoreData persistMode available picked =>
    rw [PortalState.locked]
    split
    · exact .answer rfl _
    · rename_i q leave hleave
      obtain rfl | ⟨o, -, rfl⟩ := selectSources_eq_error hleave
      · exact .left _ leave rfl rfl
      · exact .left _ leave rfl rfl
  | start r captured => exact .start (.answer rfl _)
  | startCast r captured => exact .answer rfl _
  | connectToEis session appId sender creation =>
    rw [PortalState.locked]
    split
    · exact .silent _ _ rfl rfl rfl (hself _)
    · exact .silent _ _ rfl rfl rfl (not_answered_singleton (fun _ _ h => by cases h) _)
  | requestClipboard session =>
    rw [PortalState.locked]
    split
    · exact .silent _ _ rfl rfl rfl (hself _)
    split
    · exact .silent _ _ rfl rfl rfl (hself _)
    · exact .silent _ _ rfl rfl rfl (hself _)
  | notify session n =>
    rw [PortalState.locked]
    split
    · exact .silent _ _ rfl rfl rfl (not_answered_singleton (fun _ _ h => by cases h) _)
    · exact .silent _ _ rfl rfl rfl (not_answered_singleton (fun _ _ h => by cases h) _)
  | close session =>
    exact .silent _ _ rfl rfl rfl (not_answered_singleton (fun _ _ h => by cases h) _)
  | cancel session =>
    cases session with
    | none => exact .silent _ _ rfl rfl rfl hnil
    | some session =>
      exact .silent _ _ rfl rfl rfl (not_answered_singleton (fun _ _ h => by cases h) _)
  | disconnected sender =>
    exact .silent _ _ rfl rfl rfl (not_answered_singleton (fun _ _ h => by cases h) _)
  | cleanup now =>
    rw [PortalState.locked]
    split
    · exact .silent _ _ rfl rfl rfl hnil
    · exact .silent _ _ rfl rfl rfl (not_answered_singleton (fun _ _ h => by cases h) _)

/-- What is left to do after a call is nothing of the request objects. -/
theorem resume_requests (p : PortalState) (flush : InputEvent → Option String) (rest : Rest) :
    (p.resume flush rest).1.requests = p.requests ∧ (p.resume flush rest).1.waiting = p.waiting ∧
      ∀ call result, .answered call result ∉ (p.resume flush rest).2.2 := by
  cases rest with
  | inject session n =>
    rw [PortalState.resume]
    split
    · exact ⟨rfl, rfl, by simp⟩
    · exact ⟨rfl, rfl, by simp⟩
  | release sessions =>
    cases sessions with
    | nil => exact ⟨rfl, rfl, fun _ _ => List.not_mem_nil⟩
    | cons session sessions => exact ⟨rfl, rfl, fun _ _ => List.not_mem_nil⟩

/-! ### Runs -/

/-- Which calls the objects on the bus are of: those that are waiting, and those that left early. -/
structure Requesting (calls : List PortalCall) (log : List PortalAction) (p : PortalState) :
    Prop where
  owner : ∀ handle target, p.requests handle = some target →
    ∃ call ∈ calls, call.request = some (handle, target) ∧
      (call ∈ p.waiting ∨ ∃ leave, .answered call (.error leave) ∈ log)
  object : ∀ call ∈ calls, ∀ handle target, call.request = some (handle, target) →
    (call ∈ p.waiting ∨ ∃ leave, .answered call (.error leave) ∈ log) →
    p.requests handle = some target
  known : ∀ call ∈ p.waiting, call.request ≠ none → call ∈ calls
  answered : ∀ call result, .answered call result ∈ log → call.request ≠ none →
    call ∈ calls ∧ call ∉ p.waiting
  nodup : (handles p.waiting).Nodup

variable {calls : List PortalCall} {log : List PortalAction}

/-- A step that changes nothing here and answers nothing. -/
theorem Requesting.quiet (h : Requesting calls log p) {q : PortalState}
    {actions : List PortalAction} (hrequests : q.requests = p.requests)
    (hwaiting : q.waiting = p.waiting)
    (hactions : ∀ call result, .answered call result ∉ actions) :
    Requesting calls (log ++ actions) q := by
  have hlog : ∀ call result, .answered call result ∈ log ++ actions ↔
      .answered call result ∈ log := fun call result =>
    List.mem_append.trans (or_iff_left (hactions call result))
  obtain ⟨howner, hobject, hknown, hanswered, hnodup⟩ := h
  rw [← hrequests, ← hwaiting] at *
  exact ⟨by simpa only [hlog] using howner, by simpa only [hlog] using hobject, hknown,
    by simpa only [hlog] using hanswered, hnodup⟩

/-- A call without a handle is one more call. -/
theorem Requesting.more (h : Requesting calls log p) {call : PortalCall}
    (hcall : call.request = none) : Requesting (calls ++ [call]) log p where
  owner := fun handle target htarget => by
    obtain ⟨other, hother, hrequest⟩ := h.owner handle target htarget
    exact ⟨other, List.mem_append_left _ hother, hrequest⟩
  object := fun other hother handle target hrequest => by
    obtain hother | hother := List.mem_append.mp hother
    · exact h.object other hother handle target hrequest
    · rw [List.mem_singleton.mp hother, hcall] at hrequest
      cases hrequest
  known := fun other hother hne => List.mem_append_left _ (h.known other hother hne)
  answered := fun other result hother hne =>
    (h.answered other result hother hne).imp_left (List.mem_append_left _)
  nodup := h.nodup

/-- A call that waits and comes without a handle. -/
theorem Requesting.wait (h : Requesting calls log p) {q : PortalState} {call : PortalCall}
    (hcall : call.request = none) (hrequests : q.requests = p.requests)
    (hwaiting : q.waiting = p.waiting ++ [call]) : Requesting calls log q := by
  have hmem : ∀ other : PortalCall, other.request ≠ none →
      (other ∈ q.waiting ↔ other ∈ p.waiting) := by
    intro other hother
    rw [hwaiting, List.mem_append, List.mem_singleton]
    exact or_iff_left fun heq => hother (heq ▸ hcall)
  have hsome : ∀ (other : PortalCall) handle target,
      other.request = some (handle, target) → other.request ≠ none := by
    intro other handle target hother hnone
    rw [hother] at hnone
    cases hnone
  have hhandles : handles q.waiting = handles p.waiting := by
    rw [hwaiting, handles, List.filterMap_append]
    have hnone : call.handle = none := by rw [PortalCall.handle, hcall]; rfl
    rw [List.filterMap_cons_none hnone]
    exact List.append_nil _
  refine ⟨?_, ?_, ?_, ?_, hhandles ▸ h.nodup⟩
  · intro handle target htarget
    obtain ⟨other, hother, hrequest, hstate⟩ := h.owner handle target (hrequests ▸ htarget)
    exact ⟨other, hother, hrequest,
      hstate.imp_left (hmem other (hsome other _ _ hrequest)).mpr⟩
  · intro other hother handle target hrequest hstate
    rw [hrequests]
    exact h.object other hother handle target hrequest
      (hstate.imp_left (hmem other (hsome other _ _ hrequest)).mp)
  · exact fun other hin hother => h.known other ((hmem other hother).mp hin) hother
  · intro other result hin hother
    obtain ⟨hcalls, hnot⟩ := h.answered other result hin hother
    exact ⟨hcalls, fun hw => hnot ((hmem other hother).mp hw)⟩

/-- A call that waits and has put its object on the bus. -/
theorem Requesting.register (h : Requesting calls log p) {q : PortalState} {call : PortalCall}
    {handle : String} {target : Option String} (hcall : call.request = some (handle, target))
    (hunique : (handles (calls ++ [call])).Nodup)
    (hrequests : q.requests =
      Function.update p.requests handle (some ((p.requests handle).getD target)))
    (hwaiting : q.waiting = p.waiting ++ [call]) : Requesting (calls ++ [call]) log q := by
  have hhandle := handle_of_request hcall
  have hfresh : ∀ other ∈ calls, other.handle ≠ some handle := by
    intro other hother hsame
    rw [handles, List.filterMap_append, List.nodup_append] at hunique
    refine hunique.2.2 handle (mem_handles hother hsame) handle ?_ rfl
    exact mem_handles List.mem_cons_self hhandle
  have hnone : p.requests handle = none := by
    cases hrequest : p.requests handle with
    | none => rfl
    | some found =>
      obtain ⟨other, hother, hsame, -⟩ := h.owner handle found hrequest
      exact absurd (handle_of_request hsame) (hfresh other hother)
  rw [hnone] at hrequests
  have hself : q.requests handle = some target := by
    rw [hrequests, Function.update_self]
    rfl
  have hother : ∀ other, other ≠ handle → q.requests other = p.requests other := fun other hne =>
    hrequests ▸ Function.update_of_ne hne _ _
  have hwaits : ∀ other ∈ p.waiting, other ∈ q.waiting := fun other hin =>
    hwaiting ▸ List.mem_append_left _ hin
  refine ⟨?_, ?_, ?_, ?_, ?_⟩
  · intro path found hfound
    by_cases hpath : path = handle
    · subst hpath
      obtain rfl := Option.some.inj (hself.symm.trans hfound)
      exact ⟨call, by simp, hcall, Or.inl (hwaiting ▸ by simp)⟩
    · obtain ⟨other, hin, hrequest, hstate⟩ := h.owner path found (hother path hpath ▸ hfound)
      exact ⟨other, List.mem_append_left _ hin, hrequest, hstate.imp_left (hwaits other)⟩
  · intro other hin path found hrequest hstate
    obtain hin | hin := List.mem_append.mp hin
    · have hpath : path ≠ handle := fun heq =>
        hfresh other hin (heq ▸ handle_of_request hrequest)
      rw [hother path hpath]
      refine h.object other hin path found hrequest (hstate.imp_left fun hw => ?_)
      rw [hwaiting, List.mem_append, List.mem_singleton] at hw
      refine hw.resolve_right fun heq => ?_
      exact hfresh other hin (heq ▸ hhandle)
    · obtain rfl := List.mem_singleton.mp hin
      rw [hcall] at hrequest
      obtain ⟨rfl, rfl⟩ := Prod.mk.inj (Option.some.inj hrequest)
      exact hself
  · intro other hin hother
    rw [hwaiting, List.mem_append, List.mem_singleton] at hin
    obtain hin | rfl := hin
    · exact List.mem_append_left _ (h.known other hin hother)
    · exact List.mem_append_right _ List.mem_cons_self
  · intro other result hin hother
    obtain ⟨hcalls, hnot⟩ := h.answered other result hin hother
    refine ⟨List.mem_append_left _ hcalls, fun hw => ?_⟩
    rw [hwaiting, List.mem_append, List.mem_singleton] at hw
    obtain hw | rfl := hw
    · exact hnot hw
    · exact hfresh other hcalls hhandle
  · have hsplit : handles q.waiting = handles p.waiting ++ [handle] := by
      rw [hwaiting, handles, List.filterMap_append, List.filterMap_cons_some hhandle]
      rfl
    rw [hsplit, List.nodup_append]
    refine ⟨h.nodup, List.nodup_singleton _, ?_⟩
    rintro path hpath path' hpath' rfl
    obtain rfl := List.mem_singleton.mp hpath'
    obtain ⟨other, hin, hsame⟩ := List.mem_filterMap.mp hpath
    refine hfresh other (h.known other hin fun hno => ?_) hsame
    rw [PortalCall.handle, hno] at hsame
    cases hsame

/-- A call that is let in waits no longer, and nothing else changes for the calls with a handle. -/
theorem mem_eraseIdx_waiting (h : (handles p.waiting).Nodup) {index : ℕ} {call other : PortalCall}
    (hcall : p.waiting[index]? = some call) (hother : other.request ≠ none) :
    other ∈ p.waiting.eraseIdx index ↔ other ∈ p.waiting ∧ other ≠ call := by
  obtain ⟨hlt, hget⟩ := List.getElem?_eq_some_iff.mp hcall
  have hsplit : p.waiting = p.waiting.take index ++ call :: p.waiting.drop (index + 1) := by
    rw [← hget, List.getElem_cons_drop, List.take_append_drop]
  rw [List.eraseIdx_eq_take_drop_succ]
  generalize p.waiting.take index = front at *
  generalize p.waiting.drop (index + 1) = back at *
  rw [hsplit] at h ⊢
  constructor
  · intro hin
    refine ⟨?_, ?_⟩
    · rw [List.mem_append, List.mem_cons]
      exact (List.mem_append.mp hin).imp_right Or.inr
    · rintro rfl
      obtain ⟨request, hrequest⟩ := Option.ne_none_iff_exists'.mp hother
      have hhandle := handle_of_request hrequest
      rw [handles, List.filterMap_append, List.filterMap_cons_some hhandle,
        List.nodup_middle, List.nodup_cons, ← List.filterMap_append] at h
      exact h.1 (mem_handles hin hhandle)
  · rintro ⟨hin, hne⟩
    rw [List.mem_append, List.mem_cons] at hin
    rw [List.mem_append]
    exact hin.imp_right fun hor => hor.resolve_left hne

/-- A call that waited for the lock gets it. -/
theorem Requesting.enter (h : Requesting calls log p) (hunique : (handles calls).Nodup)
    {index : ℕ} {call : PortalCall} (hcall : p.waiting[index]? = some call)
    {result : PortalState × List PortalAction}
    (hstep : RequestStep { p with waiting := p.waiting.eraseIdx index } call result) :
    Requesting calls (log ++ result.2) result.1 := by
  have hin : call ∈ p.waiting := List.mem_of_getElem? hcall
  have hmem : ∀ other : PortalCall, other.request ≠ none →
      (other ∈ p.waiting.eraseIdx index ↔ other ∈ p.waiting ∧ other ≠ call) :=
    fun other => mem_eraseIdx_waiting h.nodup hcall
  have hsome : ∀ {other : PortalCall} {handle target},
      other.request = some (handle, target) → other.request ≠ none := by
    intro other handle target hother hnone
    rw [hother] at hnone
    cases hnone
  have hnodup : (handles (p.waiting.eraseIdx index)).Nodup :=
    h.nodup.sublist ((List.eraseIdx_sublist _ _).filterMap _)
  -- whatever is answered now is the call, and what else there is stays as it was
  have hstate : ∀ (actions : List PortalAction) (other : PortalCall), other.request ≠ none →
      (∀ c result, .answered c result ∈ actions → c = call) → other ≠ call →
      ((other ∈ p.waiting.eraseIdx index ∨
          ∃ leave, .answered other (.error leave) ∈ log ++ actions) ↔
        (other ∈ p.waiting ∨ ∃ leave, .answered other (.error leave) ∈ log)) := by
    intro actions other hother hactions hne
    rw [hmem other hother, and_iff_left hne]
    refine or_congr_right (exists_congr fun leave => ?_)
    rw [List.mem_append]
    exact or_iff_left fun hnew => hne (hactions _ _ hnew)
  have hanswered : ∀ (actions : List PortalAction) (q : PortalState),
      q.waiting = p.waiting.eraseIdx index →
      (∀ c result, .answered c result ∈ actions → c = call) →
      ∀ other result, .answered other result ∈ log ++ actions → other.request ≠ none →
        other ∈ calls ∧ other ∉ q.waiting := by
    intro actions q hwaiting hactions other result hlog hother
    rw [hwaiting, hmem other hother]
    obtain hlog | hlog := List.mem_append.mp hlog
    · obtain ⟨hcalls, hnot⟩ := h.answered other result hlog hother
      exact ⟨hcalls, fun hw => hnot hw.1⟩
    · obtain rfl := hactions other result hlog
      exact ⟨h.known other hin hother, fun hw => hw.2 rfl⟩
  have hknown : ∀ q : PortalState, q.waiting = p.waiting.eraseIdx index →
      ∀ other ∈ q.waiting, other.request ≠ none → other ∈ calls := by
    intro q hwaiting other hw hother
    exact h.known other (List.mem_of_mem_eraseIdx (hwaiting ▸ hw)) hother
  have hself : ∀ (r : Except Leave Reply) c result,
      PortalAction.answered c result ∈ [.answered call r] → c = call := by
    intro r c result hc
    exact (PortalAction.answered.inj (List.mem_singleton.mp hc)).1
  cases hstep with
  | silent q actions hnone hrequests hwaiting hactions =>
    have hrequests : q.requests = p.requests := hrequests
    have hwaiting : q.waiting = p.waiting.eraseIdx index := hwaiting
    have hne : ∀ {other : PortalCall}, other.request ≠ none → other ≠ call :=
      fun hother heq => hother (heq ▸ hnone)
    refine ⟨?_, ?_, hknown q hwaiting, hanswered actions q hwaiting hactions,
      hwaiting ▸ hnodup⟩
    · intro handle target htarget
      obtain ⟨other, hother, hrequest, hwas⟩ := h.owner handle target (hrequests ▸ htarget)
      refine ⟨other, hother, hrequest, ?_⟩
      rw [hwaiting]
      exact (hstate actions other (hsome hrequest) hactions (hne (hsome hrequest))).mpr hwas
    · intro other hother handle target hrequest hnow
      rw [hwaiting] at hnow
      rw [hrequests]
      exact h.object other hother handle target hrequest
        ((hstate actions other (hsome hrequest) hactions (hne (hsome hrequest))).mp hnow)
  | left q leave hrequests hwaiting =>
    have hrequests : q.requests = p.requests := hrequests
    have hwaiting : q.waiting = p.waiting.eraseIdx index := hwaiting
    refine ⟨?_, ?_, hknown q hwaiting, hanswered _ q hwaiting (hself _), hwaiting ▸ hnodup⟩
    · intro handle target htarget
      obtain ⟨other, hother, hrequest, hwas⟩ := h.owner handle target (hrequests ▸ htarget)
      refine ⟨other, hother, hrequest, ?_⟩
      by_cases heq : other = call
      · exact Or.inr ⟨leave, by rw [heq]; exact List.mem_append_right _ List.mem_cons_self⟩
      · rw [hwaiting]
        exact (hstate _ other (hsome hrequest) (hself _) heq).mpr hwas
    · intro other hother handle target hrequest hnow
      rw [hrequests]
      refine h.object other hother handle target hrequest ?_
      by_cases heq : other = call
      · exact Or.inl (heq ▸ hin)
      · rw [hwaiting] at hnow
        exact (hstate _ other (hsome hrequest) (hself _) heq).mp hnow
  | ended q reply handle target hrequest hrequests hwaiting =>
    have hrequests : q.requests = Function.update p.requests handle none := hrequests
    have hwaiting : q.waiting = p.waiting.eraseIdx index := hwaiting
    have hcalls : call ∈ calls := h.known call hin (hsome hrequest)
    refine ⟨?_, ?_, hknown q hwaiting, hanswered _ q hwaiting (hself _), hwaiting ▸ hnodup⟩
    · intro path found hfound
      rw [hrequests] at hfound
      by_cases hpath : path = handle
      · rw [hpath, Function.update_self] at hfound
        cases hfound
      · rw [Function.update_of_ne hpath] at hfound
        obtain ⟨other, hother, hsame, hwas⟩ := h.owner path found hfound
        have heq : other ≠ call := by
          rintro rfl
          rw [hrequest] at hsame
          exact hpath (Prod.mk.inj (Option.some.inj hsame)).1.symm
        refine ⟨other, hother, hsame, ?_⟩
        rw [hwaiting]
        exact (hstate _ other (hsome hsame) (hself _) heq).mpr hwas
    · intro other hother path found hsame hnow
      rw [hwaiting] at hnow
      have heq : other ≠ call := by
        rintro rfl
        obtain hw | ⟨leave, hleave⟩ := hnow
        · exact ((hmem other (hsome hsame)).mp hw).2 rfl
        · obtain hleave | hleave := List.mem_append.mp hleave
          · exact (h.answered other _ hleave (hsome hsame)).2 hin
          · cases List.mem_singleton.mp hleave
      have hpath : path ≠ handle := fun hp => heq (eq_of_handle hunique hother hcalls
        (handle_of_request hsame) (hp ▸ handle_of_request hrequest))
      rw [hrequests, Function.update_of_ne hpath]
      exact h.object other hother path found hsame
        ((hstate _ other (hsome hsame) (hself _) heq).mp hnow)

/-- One input. A handle is used once in a run, so a call that arrives finds no object under its
handle. -/
theorem Requesting.step (h : Requesting calls log p) (i : PortalInput)
    (hunique : (handles (calls ++ arrived [i])).Nodup) :
    Requesting (calls ++ arrived [i]) (log ++ (portalBus.step p i).2) (portalBus.step p i).1 := by
  have hnothing : ∀ call result, .answered call result ∉ ([] : List PortalAction) :=
    fun _ _ => List.not_mem_nil
  cases i with
  | arrive call =>
    show Requesting (calls ++ [call]) (log ++ []) _
    rw [List.append_nil]
    cases hcall : call.request with
    | none =>
      refine (h.wait hcall ?_ rfl).more hcall
      simp only [portalBus, hcall]
      rfl
    | some request =>
      obtain ⟨handle, target⟩ := request
      refine h.register hcall hunique ?_ rfl
      simp only [portalBus, hcall]
      rfl
  | close handle =>
    show Requesting (calls ++ []) _ _
    rw [List.append_nil]
    simp only [portalBus]
    split
    · exact h.quiet rfl rfl hnothing
    · rw [List.append_nil]
      exact h.wait rfl rfl rfl
  | enter index =>
    rw [show arrived [.enter index] = [] from rfl, List.append_nil] at hunique ⊢
    simp only [portalBus]
    split
    · exact h.quiet rfl rfl hnothing
    split
    · exact h.quiet rfl rfl hnothing
    · rename_i call hcall
      exact h.enter hunique hcall (requestStep _ call)
  | resume index flush =>
    show Requesting (calls ++ []) _ _
    rw [List.append_nil]
    simp only [portalBus]
    split
    · exact h.quiet rfl rfl hnothing
    · rename_i rest hrest
      obtain ⟨hrequests, hwaiting, hactions⟩ :=
        resume_requests { p with rests := p.rests.eraseIdx index } flush rest
      exact h.quiet hrequests hwaiting hactions

theorem arrived_cons (i : PortalInput) (inputs : List PortalInput) :
    arrived (i :: inputs) = arrived [i] ++ arrived inputs := by
  cases i <;> rfl

/-- The calls of a run are those before it and those that arrive in it. -/
theorem Requesting.exec (h : Requesting calls log p) (inputs : List PortalInput)
    (hunique : (handles (calls ++ arrived inputs)).Nodup) :
    Requesting (calls ++ arrived inputs) (log ++ portalBus.trace p inputs)
      (portalBus.exec p inputs) := by
  induction inputs generalizing p calls log with
  | nil =>
    rw [show log ++ portalBus.trace p [] = log from List.append_nil log,
      show calls ++ arrived [] = calls from List.append_nil calls]
    exact h
  | cons i inputs ih =>
    rw [arrived_cons, ← List.append_assoc] at hunique ⊢
    rw [Machine.exec_cons, Machine.trace_cons, ← List.append_assoc]
    refine ih (h.step i ?_) hunique
    rw [handles, List.filterMap_append] at hunique
    exact (List.nodup_append.mp hunique).1

/-- Closing a session removes it and no other. -/
theorem lookup_closeSession (m : SessionManager) (handle other : String) :
    (m.closeSession handle).2.sessions.lookup other =
      if other = handle then none else m.sessions.lookup other := by
  rw [SessionManager.closeSession]
  by_cases hother : other = handle
  · rw [if_pos hother, hother]
    cases hlookup : m.sessions.lookup handle with
    | none => exact hlookup
    | some session =>
      dsimp only
      rw [SessionManager.uncount_sessions]
      exact AList.lookup_erase _ _
  · rw [if_neg hother]
    cases m.sessions.lookup handle with
    | none => rfl
    | some session =>
      dsimp only
      rw [SessionManager.uncount_sessions]
      exact AList.lookup_erase_ne hother

/-- A request object is closed, and what it does is let in next. -/
theorem exec_cancel {handle session : String} (hrequest : p.requests handle = some (some session))
    (hheld : p.held = false) :
    portalBus.exec p [.close handle, .enter p.waiting.length] =
      (p.forget (p.manager.closeSession session).1.toList
        (p.manager.closeSession session).2).1 := by
  obtain ⟨manager, grants, requests, input, held, waiting, rests⟩ := p
  obtain rfl : held = false := hheld
  have hlast : (waiting ++ [PortalCall.cancel (some session)])[waiting.length]? =
      some (.cancel (some session)) := List.getElem?_concat_length
  have herase : (waiting ++ [PortalCall.cancel (some session)]).eraseIdx waiting.length =
      waiting := by
    rw [List.eraseIdx_append_of_length_le (le_refl _), Nat.sub_self, List.eraseIdx_cons_zero,
      List.append_nil]
  have hrequest : requests handle = some (some session) := hrequest
  simp only [Machine.exec_cons, Machine.exec_nil, portalBus, hrequest, hlast, herase,
    Bool.false_eq_true, if_false]
  rfl

section Runs

variable (max : ℕ) (protocol : InputProtocol) (pointerManager keyboardManager seat : Bool)
  (keymap : UInt32 → Option UInt32) (inputs : List PortalInput)

/-- By induction on the inputs, from a portal without objects. -/
theorem requesting_exec (hunique : (handles (arrived inputs)).Nodup) :
    Requesting (arrived inputs)
      (portalBus.trace (.initial max protocol pointerManager keyboardManager seat keymap) inputs)
      (portalBus.exec
        (.initial max protocol pointerManager keyboardManager seat keymap) inputs) := by
  have h : Requesting [] [] (.initial max protocol pointerManager keyboardManager seat keymap) :=
    { owner := fun _ _ htarget => by cases htarget
      object := fun _ hin => absurd hin List.not_mem_nil
      known := fun _ hin => absurd hin List.not_mem_nil
      answered := fun _ _ hin => absurd hin List.not_mem_nil
      nodup := List.nodup_nil }
  exact h.exec inputs hunique

/-- **The request objects on the bus.** If no handle comes twice, then after every run there is an
object for a call exactly as long as the call has not ended: while it waits for the lock, and for
good if it left early. It stands for the session of the call. -/
theorem requests_iff (hunique : (handles (arrived inputs)).Nodup) (handle : String)
    (target : Option String) :
    (portalBus.exec (.initial max protocol pointerManager keyboardManager seat keymap)
        inputs).requests handle = some target ↔
      ∃ call ∈ arrived inputs, call.request = some (handle, target) ∧
        (call ∈ (portalBus.exec
            (.initial max protocol pointerManager keyboardManager seat keymap) inputs).waiting ∨
          ∃ leave, .answered call (.error leave) ∈ portalBus.trace
            (.initial max protocol pointerManager keyboardManager seat keymap) inputs) := by
  have h := requesting_exec max protocol pointerManager keyboardManager seat keymap inputs hunique
  constructor
  · exact h.owner handle target
  · rintro ⟨call, hcall, hrequest, hstate⟩
    exact h.object call hcall handle target hrequest hstate

/-- **A call that was refused can still close the session.** Whatever a call left early for, such as
that the session is not the caller's, closing its request object takes the session off the manager.
Nothing else happens: the other sessions are as they were, and what the session had is not
released. -/
theorem cancelled_by_refused (hunique : (handles (arrived inputs)).Nodup) {call : PortalCall}
    {handle session : String} {leave : Leave}
    (hrequest : call.request = some (handle, some session))
    (hleft : .answered call (.error leave) ∈ portalBus.trace
      (.initial max protocol pointerManager keyboardManager seat keymap) inputs)
    (hheld : (portalBus.exec
      (.initial max protocol pointerManager keyboardManager seat keymap) inputs).held = false) :
    let p := portalBus.exec
      (.initial max protocol pointerManager keyboardManager seat keymap) inputs
    let q := portalBus.exec p [.close handle, .enter p.waiting.length]
    (∀ other, q.getSession other = if other = session then none else p.getSession other) ∧
      q.input = p.input ∧ q.rests = p.rests := by
  intro p q
  have h := requesting_exec max protocol pointerManager keyboardManager seat keymap inputs hunique
  have hsome : call.request ≠ none := by
    rw [hrequest]
    exact Option.some_ne_none _
  have hobject : p.requests handle = some (some session) :=
    h.object call (h.answered call _ hleft hsome).1 handle _ hrequest (Or.inr ⟨leave, hleft⟩)
  have hq : q = (p.forget (p.manager.closeSession session).1.toList
      (p.manager.closeSession session).2).1 :=
    exec_cancel hobject hheld
  rw [hq]
  refine ⟨fun other => ?_, rfl, rfl⟩
  show ((p.manager.closeSession session).2.sessions.lookup other).map
    (fun found => (⟨found, p.grants other⟩ : Opened)) = _
  rw [lookup_closeSession]
  split
  · rfl
  · rfl

end Runs

/-- A session is set up by one application, and another one selects devices for it. -/
def refusedInputs : List PortalInput :=
  [.arrive (.createSession ⟨"r", "s", "app", ":1.1"⟩ .none 0 0), .enter 0,
    .arrive (.selectDevices ⟨"x", "s", "other", ":1.2"⟩ none), .enter 0]

/-- The call is refused, and its object stays on the bus. -/
theorem refused_answered :
    .answered (.selectDevices ⟨"x", "s", "other", ":1.2"⟩ none) (.error (.fault
      (.permissionDenied "App other tried to access session owned by app"))) ∈
      portalBus.trace (.initial 10 .wlrVirtualInput true true true fun _ => none)
        refusedInputs :=
  List.mem_of_getElem? (i := 1) rfl

theorem requests_iff_refused :
    (portalBus.exec (.initial 10 .wlrVirtualInput true true true fun _ => none)
      refusedInputs).requests "x" = some (some "s") := by
  have harrived : PortalCall.selectDevices ⟨"x", "s", "other", ":1.2"⟩ none ∈
      arrived refusedInputs := List.mem_of_getElem? (i := 1) rfl
  exact (requests_iff 10 .wlrVirtualInput true true true (fun _ => none) refusedInputs
    (by decide) "x" _).mpr ⟨_, harrived, rfl, .inr ⟨_, refused_answered⟩⟩

theorem cancelled_by_refused_other :
    let p := portalBus.exec (.initial 10 .wlrVirtualInput true true true fun _ => none)
      refusedInputs
    (p.getSession "s").isSome = true ∧
      (portalBus.exec p [.close "x", .enter 0]).getSession "s" = none := by
  have hrequest : (PortalCall.selectDevices ⟨"x", "s", "other", ":1.2"⟩ none).request =
      some ("x", some "s") := rfl
  have h := cancelled_by_refused 10 .wlrVirtualInput true true true (fun _ => none) refusedInputs
    (by decide) hrequest refused_answered rfl
  exact ⟨rfl, (h.1 "s").trans (if_pos rfl)⟩

end Portal

end Cheirizo
