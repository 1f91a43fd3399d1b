import Cheirizo.Lib.Objects
import Cheirizo.Lib.Text

/-!
# Clipboard selections by data-control

`src/desktop/portal/xdg_desktop/wayland/data_control.rs` and the handlers of its events in
`dispatch.rs`. The compositor introduces an offer, names its MIME types and then says that it is the
selection. The client keeps the offer that was introduced last until it is selected. Its own
selections are sources, which stand for data until another client selects something.

The offer that an event names is not looked at: a selection takes the pending offer, and so does a
MIME type. Offers for the primary selection are introduced in the same way and never selected.

## What is outside

Offers have the numbers that the compositor gives them, sources are numbered by the client. Writing
to a file descriptor is an action. The device and the manager are of one of two protocols, and only
that is kept of them.

## Main definitions

* `DataControlState` — the client
* `DataControlState.handle` — an event or a command
* `offerAccess`, `sourceAccess` — what an action does to an offer or a source

## Main results

* `objects_of_run` — what lives is what the state names, and nothing else is touched
* `selection_iff` — when the current offer is the selection
* `mimeTypes_of_run` — the MIME types that are shared
-/

namespace Cheirizo

namespace Wayland

/-- A MIME type. -/
abbrev Mime := String

/-- What is transferred under a MIME type. -/
abbrev Bytes := List UInt8

/-- Data for MIME types. -/
abbrev SourceData := Mime → Option Bytes

/-- An offer of the compositor, by its object number. -/
abbrev OfferId := ℕ

/-- A source of the client, by its object number. -/
abbrev SourceId := ℕ

/-- The standard protocol, or the older one that compositors have. -/
inductive DataControlProtocol where
  | ext
  | wlr
  deriving DecidableEq, Repr

/-- What the clipboard of the server asks of the Wayland side. -/
inductive ClipboardCommand where
  | setSelection (mimeTypes : List Mime) (data : SourceData)
  | updateSourceData (mimeType : Mime) (data : Bytes)
  | receiveFromOffer (mimeType : Mime)

/-- The events of the device, of offers and of the client's source. -/
inductive DataControlEvent where
  | dataOffer (offer : OfferId)
  | offer (offer : OfferId) (mimeType : Mime)
  | selection (offer : Option OfferId)
  | primarySelection (offer : Option OfferId)
  | finished
  | send (mimeType : Mime)
  | cancelled

/-- Whatever reaches the client: events of the compositor and commands of the server. -/
inductive DataControlInput where
  | event (event : DataControlEvent)
  | command (command : ClipboardCommand)

/-- What is done to objects, and what is told to the threads that wait for a change. -/
inductive DataControlAction where
  | introduced (offer : OfferId)
  | receive (offer : OfferId) (mimeType : Mime)
  | destroyOffer (offer : OfferId)
  | createSource (source : SourceId) (protocol : DataControlProtocol)
  | offer (source : SourceId) (mimeType : Mime)
  | setSelection (source : SourceId)
  | destroySource (source : SourceId)
  | write (data : Bytes)
  | changed (mimeTypes : List Mime)
  deriving DecidableEq, Repr

/-- The client's side of the protocol. -/
structure DataControlState where
  manager : Option DataControlProtocol
  device : Option DataControlProtocol
  currentOffer : Option OfferId
  currentSource : Option SourceId
  sourceData : SourceData
  pendingOffer : Option (OfferId × List Mime)
  mimeTypes : List Mime
  serial : UInt32
  nextSource : SourceId

namespace DataControlState

/-- The state before any event, with a manager and a device if there are any. -/
def initial (manager device : Option DataControlProtocol) : DataControlState where
  manager := manager
  device := device
  currentOffer := none
  currentSource := none
  sourceData := fun _ => none
  pendingOffer := none
  mimeTypes := []
  serial := 0
  nextSource := 0

variable (s : DataControlState)

/-- The offer that has not been selected yet. -/
def destroyPending : List DataControlAction :=
  s.pendingOffer.toList.map fun p => .destroyOffer p.1

/-- The offer that is selected. -/
def destroyCurrent : List DataControlAction :=
  s.currentOffer.toList.map .destroyOffer

/-- The source that the client offers. -/
def destroySource : List DataControlAction :=
  s.currentSource.toList.map .destroySource

/-- An offer that is never selected goes when the next one comes. -/
def setPendingOffer (offer : OfferId) : DataControlState × List DataControlAction :=
  ({ s with pendingOffer := some (offer, []) }, .introduced offer :: s.destroyPending)

/-- The offer that the event belongs to is not asked for. -/
def onOfferMimeType (mimeType : Mime) : DataControlState :=
  { s with pendingOffer := s.pendingOffer.map fun p => (p.1, p.2 ++ [mimeType]) }

/-- The pending offer becomes the selected one, whichever offer the event names. -/
def onSelection : DataControlState × List DataControlAction :=
  let mimeTypes := match s.pendingOffer with
    | some (_, mimeTypes) => mimeTypes
    | none => []
  ({ s with
      currentOffer := s.pendingOffer.map Prod.fst
      pendingOffer := none
      mimeTypes := mimeTypes
      serial := s.serial + 1 },
    s.destroyCurrent ++ [.changed mimeTypes])

/-- Both offers go, and the shared types with them. -/
def onSelectionCleared : DataControlState × List DataControlAction :=
  ({ s with
      currentOffer := none
      pendingOffer := none
      mimeTypes := []
      serial := s.serial + 1 },
    s.destroyCurrent ++ s.destroyPending ++ [.changed []])

/-- Data that arrives later is served from then on. -/
def updateSourceData (mimeType : Mime) (data : Bytes) : DataControlState :=
  { s with sourceData := Function.update s.sourceData mimeType (some data) }

/-- A type without its parameters and the white space around it. -/
def strippedMime (mimeType : Mime) : Mime :=
  String.ofList (Text.trim (mimeType.toList.takeWhile (· ≠ ';')))

/-- The data for a MIME type, or for the type without its parameters. -/
def served (mimeType : Mime) : Option Bytes :=
  (s.sourceData mimeType).or (s.sourceData (strippedMime mimeType))

/-- A type without data is not written. -/
def onSourceSend (mimeType : Mime) : List DataControlAction :=
  (s.served mimeType).toList.map .write

/-- Another client has taken the clipboard. -/
def onSourceCancelled : DataControlState × List DataControlAction :=
  ({ s with currentSource := none, sourceData := fun _ => none }, s.destroySource)

/-- The device is gone, and with it all that was made through it. The shared types stay. -/
def onDeviceFinished : DataControlState × List DataControlAction :=
  ({ s with
      device := none
      currentOffer := none
      pendingOffer := none
      currentSource := none
      sourceData := fun _ => none },
    s.destroyCurrent ++ s.destroyPending ++ s.destroySource)

/-- The old source is destroyed first, even if there is no new one in the end. -/
def setSelection (mimeTypes : List Mime) (data : SourceData) :
    DataControlState × List DataControlAction :=
  match s.manager with
  | none => ({ s with currentSource := none }, s.destroySource)
  | some protocol =>
    let source := s.nextSource
    let created := s.destroySource ++ .createSource source protocol ::
      mimeTypes.map (.offer source)
    if s.device = some protocol then
      ({ s with currentSource := some source, sourceData := data, nextSource := source + 1 },
        created ++ [.setSelection source])
    else
      ({ s with currentSource := none, nextSource := source + 1 },
        created ++ [.destroySource source])

/-- Data is received from the selected offer only. -/
def receiveFromOffer (mimeType : Mime) : List DataControlAction :=
  s.currentOffer.toList.map fun offer => .receive offer mimeType

/-- What an input does. -/
def handle : DataControlInput → DataControlState × List DataControlAction
  | .event (.dataOffer offer) => s.setPendingOffer offer
  | .event (.offer _ mimeType) => (s.onOfferMimeType mimeType, [])
  | .event (.selection offer) => if offer.isSome then s.onSelection else s.onSelectionCleared
  | .event (.primarySelection _) => (s, [])
  | .event .finished => s.onDeviceFinished
  | .event (.send mimeType) => (s, s.onSourceSend mimeType)
  | .event .cancelled => s.onSourceCancelled
  | .command (.setSelection mimeTypes data) => s.setSelection mimeTypes data
  | .command (.updateSourceData mimeType data) => (s.updateSourceData mimeType data, [])
  | .command (.receiveFromOffer mimeType) => (s, s.receiveFromOffer mimeType)

/-- The client, with its requests as outputs. -/
def machine : Machine DataControlState DataControlInput DataControlAction where
  step := handle

end DataControlState

/-! ### Objects -/

open Objects

/-- What a request does to an offer. -/
def offerAccess : DataControlAction → List (Access OfferId)
  | .introduced offer => [.create offer]
  | .receive offer _ => [.use offer]
  | .destroyOffer offer => [.destroy offer]
  | _ => []

/-- What a request does to a source. -/
def sourceAccess : DataControlAction → List (Access SourceId)
  | .createSource source _ => [.create source]
  | .offer source _ => [.use source]
  | .setSelection source => [.use source]
  | .destroySource source => [.destroy source]
  | _ => []

namespace DataControlState

/-- The offers that the state names. -/
def offers (s : DataControlState) : List OfferId :=
  (s.pendingOffer.map Prod.fst).toList ++ s.currentOffer.toList

/-- The compositor does not give an offer the number of one that the client has. -/
def Introduces (s : DataControlState) : DataControlInput → Prop
  | .event (.dataOffer offer) => offer ∉ s.offers
  | _ => True

instance (s : DataControlState) : DecidablePred s.Introduces
  | .event (.dataOffer offer) => inferInstanceAs (Decidable (offer ∉ s.offers))
  | .event (.offer _ _) => isTrue trivial
  | .event (.selection _) => isTrue trivial
  | .event (.primarySelection _) => isTrue trivial
  | .event .finished => isTrue trivial
  | .event (.send _) => isTrue trivial
  | .event .cancelled => isTrue trivial
  | .command _ => isTrue trivial

theorem destroyPending_access (s : DataControlState) :
    s.destroyPending.flatMap offerAccess =
      (s.pendingOffer.map Prod.fst).toList.map Access.destroy := by
  rw [destroyPending]
  cases s.pendingOffer <;> rfl

theorem destroyCurrent_access (s : DataControlState) :
    s.destroyCurrent.flatMap offerAccess = s.currentOffer.toList.map Access.destroy := by
  rw [destroyCurrent]
  cases s.currentOffer <;> rfl

theorem destroySource_access (s : DataControlState) :
    s.destroySource.flatMap sourceAccess = s.currentSource.toList.map Access.destroy := by
  rw [destroySource]
  cases s.currentSource <;> rfl

/-- The actions on one kind of object are none on the other. -/
theorem destroySource_offerAccess (s : DataControlState) :
    s.destroySource.flatMap offerAccess = [] := by
  rw [destroySource]
  cases s.currentSource <;> rfl

theorem destroyPending_sourceAccess (s : DataControlState) :
    s.destroyPending.flatMap sourceAccess = [] := by
  rw [destroyPending]
  cases s.pendingOffer <;> rfl

theorem destroyCurrent_sourceAccess (s : DataControlState) :
    s.destroyCurrent.flatMap sourceAccess = [] := by
  rw [destroyCurrent]
  cases s.currentOffer <;> rfl

/-- All that a new selection does to offers is nothing. -/
theorem setSelection_offerAccess (s : DataControlState) (mimeTypes : List Mime)
    (data : SourceData) : (s.setSelection mimeTypes data).2.flatMap offerAccess = [] := by
  have hoffers : ∀ source, (mimeTypes.map (DataControlAction.offer source)).flatMap offerAccess =
      [] := by
    intro source
    rw [List.flatMap_map]
    exact List.flatMap_eq_nil_iff.mpr fun _ _ => rfl
  rw [setSelection]
  split
  · exact s.destroySource_offerAccess
  · dsimp only
    split
    · simp [destroySource_offerAccess, hoffers, offerAccess]
    · simp [destroySource_offerAccess, hoffers, offerAccess]

theorem offers_setSelection (s : DataControlState) (mimeTypes : List Mime) (data : SourceData) :
    (s.setSelection mimeTypes data).1.offers = s.offers := by
  rw [setSelection]
  split
  · rfl
  · dsimp only
    split <;> rfl

theorem offers_onOfferMimeType (s : DataControlState) (mimeType : Mime) :
    (s.onOfferMimeType mimeType).offers = s.offers := by
  rw [onOfferMimeType, offers, Option.map_map]
  rfl

/-- The numbers of the offers stay different, and what is done to offers leaves those alive that the
state names. -/
theorem offers_handle {s : DataControlState} {i : DataControlInput} (hs : s.offers.Nodup)
    (hi : s.Introduces i) :
    (s.handle i).1.offers.Nodup ∧
      run s.offers ((s.handle i).2.flatMap offerAccess) = some (s.handle i).1.offers := by
  have hdisjoint : ∀ a ∈ s.currentOffer.toList, a ∉ (s.pendingOffer.map Prod.fst).toList :=
    fun a hcurrent hpending => (List.nodup_append.mp hs).2.2 a hpending a hcurrent rfl
  -- the current offer goes, and then the pending one
  have hcurrent : run s.offers (s.currentOffer.toList.map .destroy) =
      some (s.pendingOffer.map Prod.fst).toList := by
    have h := run_destroy _ _ [] hdisjoint
    rwa [List.append_nil, List.append_nil] at h
  have hboth : run s.offers (s.currentOffer.toList.map .destroy ++
      (s.pendingOffer.map Prod.fst).toList.map .destroy) = some [] := by
    have h := run_destroy [] (s.pendingOffer.map Prod.fst).toList []
      fun _ _ => List.not_mem_nil
    rw [List.append_nil, List.nil_append, List.nil_append] at h
    rw [run_append, hcurrent]
    exact h
  obtain event | command := i
  · cases event with
    | dataOffer offer =>
      have hnew : offer ∉ s.offers := hi
      have hfront : ∀ a ∈ (s.pendingOffer.map Prod.fst).toList, a ∉ [offer] := fun a ha heq =>
        hnew (List.mem_append_left _ (List.mem_singleton.mp heq ▸ ha))
      refine ⟨?_, ?_⟩
      · refine List.nodup_cons.mpr ⟨fun h => hnew (List.mem_append_right _ h), ?_⟩
        exact (List.nodup_append.mp hs).2.1
      · show run s.offers ([.create offer] ++ s.destroyPending.flatMap offerAccess) = _
        rw [List.singleton_append, run_cons (access_create hnew), destroyPending_access]
        exact run_destroy _ _ s.currentOffer.toList hfront
    | offer o mimeType =>
      refine ⟨?_, ?_⟩
      · show (s.onOfferMimeType mimeType).offers.Nodup
        rw [offers_onOfferMimeType]
        exact hs
      · show some s.offers = some (s.onOfferMimeType mimeType).offers
        rw [offers_onOfferMimeType]
    | selection offer =>
      rw [handle]
      split
      · refine ⟨(List.nodup_append.mp hs).1, ?_⟩
        show run s.offers ((s.destroyCurrent ++ [DataControlAction.changed _]).flatMap
          offerAccess) = some (s.pendingOffer.map Prod.fst).toList
        rw [List.flatMap_append, destroyCurrent_access]
        exact (congrArg _ (List.append_nil _)).trans hcurrent
      · refine ⟨List.nodup_nil, ?_⟩
        show run s.offers ((s.destroyCurrent ++ s.destroyPending ++
          [DataControlAction.changed []]).flatMap offerAccess) = some []
        rw [List.flatMap_append, List.flatMap_append, destroyCurrent_access,
          destroyPending_access]
        exact (congrArg _ (List.append_nil _)).trans hboth
    | primarySelection offer => exact ⟨hs, rfl⟩
    | finished =>
      refine ⟨List.nodup_nil, ?_⟩
      show run s.offers ((s.destroyCurrent ++ s.destroyPending ++ s.destroySource).flatMap
        offerAccess) = some []
      rw [List.flatMap_append, List.flatMap_append, destroyCurrent_access, destroyPending_access,
        destroySource_offerAccess, List.append_nil]
      exact hboth
    | send mimeType =>
      have hwrite : (s.onSourceSend mimeType).flatMap offerAccess = [] := by
        rw [onSourceSend]
        cases s.served mimeType <;> rfl
      refine ⟨hs, ?_⟩
      show run s.offers ((s.onSourceSend mimeType).flatMap offerAccess) = some s.offers
      rw [hwrite]
      rfl
    | cancelled =>
      refine ⟨hs, ?_⟩
      show run s.offers (s.destroySource.flatMap offerAccess) = some s.offers
      rw [destroySource_offerAccess]
      rfl
  · cases command with
    | setSelection mimeTypes data =>
      refine ⟨?_, ?_⟩
      · show (s.setSelection mimeTypes data).1.offers.Nodup
        rw [offers_setSelection]
        exact hs
      · show run s.offers ((s.setSelection mimeTypes data).2.flatMap offerAccess) =
          some (s.setSelection mimeTypes data).1.offers
        rw [offers_setSelection, setSelection_offerAccess]
        rfl
    | updateSourceData mimeType data => exact ⟨hs, rfl⟩
    | receiveFromOffer mimeType =>
      have huse : ∀ offer ∈ s.currentOffer, offer ∈ s.offers := fun offer h =>
        List.mem_append_right _ (Option.mem_toList.mpr h)
      refine ⟨hs, ?_⟩
      show run s.offers ((s.receiveFromOffer mimeType).flatMap offerAccess) = some s.offers
      rw [receiveFromOffer]
      cases h : s.currentOffer with
      | none => rfl
      | some offer => exact run_use (huse offer h) fun x hx => List.mem_singleton.mp hx

theorem source_handle (s : DataControlState) (i : DataControlInput) :
    run s.currentSource.toList ((s.handle i).2.flatMap sourceAccess) =
      some (s.handle i).1.currentSource.toList := by
  have hdestroy : run s.currentSource.toList (s.currentSource.toList.map .destroy) = some [] := by
    have h := run_destroy [] s.currentSource.toList [] fun _ _ => List.not_mem_nil
    rwa [List.append_nil, List.nil_append, List.nil_append] at h
  obtain event | command := i
  · cases event with
    | dataOffer offer =>
      show run s.currentSource.toList (s.destroyPending.flatMap sourceAccess) = _
      rw [destroyPending_sourceAccess]
      rfl
    | offer o mimeType => rfl
    | selection offer =>
      rw [handle]
      split
      · show run s.currentSource.toList ((s.destroyCurrent ++
          [DataControlAction.changed _]).flatMap sourceAccess) = some s.currentSource.toList
        rw [List.flatMap_append, destroyCurrent_sourceAccess]
        rfl
      · show run s.currentSource.toList ((s.destroyCurrent ++ s.destroyPending ++
          [DataControlAction.changed []]).flatMap sourceAccess) = some s.currentSource.toList
        rw [List.flatMap_append, List.flatMap_append, destroyCurrent_sourceAccess,
          destroyPending_sourceAccess]
        rfl
    | primarySelection offer => rfl
    | finished =>
      show run s.currentSource.toList ((s.destroyCurrent ++ s.destroyPending ++
        s.destroySource).flatMap sourceAccess) = some []
      rw [List.flatMap_append, List.flatMap_append, destroyCurrent_sourceAccess,
        destroyPending_sourceAccess, destroySource_access]
      exact hdestroy
    | send mimeType =>
      show run s.currentSource.toList ((s.onSourceSend mimeType).flatMap sourceAccess) = _
      rw [onSourceSend]
      cases s.served mimeType <;> rfl
    | cancelled =>
      show run s.currentSource.toList (s.destroySource.flatMap sourceAccess) = some []
      rw [destroySource_access]
      exact hdestroy
  · cases command with
    | setSelection mimeTypes data =>
      have hoffers : ∀ x ∈ (mimeTypes.map (DataControlAction.offer s.nextSource)).flatMap
          sourceAccess, x = .use s.nextSource := by
        intro x hx
        rw [List.flatMap_map] at hx
        obtain ⟨_, _, hx⟩ := List.mem_flatMap.mp hx
        exact List.mem_singleton.mp hx
      show run s.currentSource.toList ((s.setSelection mimeTypes data).2.flatMap sourceAccess) =
        some (s.setSelection mimeTypes data).1.currentSource.toList
      rw [setSelection]
      split
      · rw [destroySource_access]
        exact hdestroy
      rename_i protocol hmanager
      have hcreated : run s.currentSource.toList ((s.destroySource ++
          .createSource s.nextSource protocol ::
            mimeTypes.map (DataControlAction.offer s.nextSource)).flatMap sourceAccess) =
          some [s.nextSource] := by
        rw [List.flatMap_append, destroySource_access, run_append, hdestroy, List.flatMap_cons]
        show run [] ([.create s.nextSource] ++ _) = _
        rw [List.singleton_append, run_cons (access_create List.not_mem_nil)]
        exact run_use List.mem_cons_self hoffers
      dsimp only
      split
      · rw [List.flatMap_append, run_append, hcreated]
        exact run_use List.mem_cons_self fun x hx => List.mem_singleton.mp hx
      · rw [List.flatMap_append, run_append, hcreated]
        show run [s.nextSource] [.destroy s.nextSource] = some []
        rw [run_cons (access_destroy List.mem_cons_self), List.erase_cons_head]
        rfl
    | updateSourceData mimeType data => rfl
    | receiveFromOffer mimeType =>
      show run s.currentSource.toList ((s.receiveFromOffer mimeType).flatMap sourceAccess) = _
      rw [receiveFromOffer]
      cases s.currentOffer <;> rfl

/-- **The objects of a run.** In every interleaving of events and commands, an offer is used only
while it lives and destroyed once, and so is a source; and alive after the run are the offers and
the source that the state names, and no others. -/
theorem objects_of_run (manager device : Option DataControlProtocol)
    (inputs : List DataControlInput)
    (h : machine.Along Introduces (initial manager device) inputs) :
    run [] ((machine.trace (initial manager device) inputs).flatMap offerAccess) =
        some (machine.exec (initial manager device) inputs).offers ∧
      run [] ((machine.trace (initial manager device) inputs).flatMap sourceAccess) =
        some (machine.exec (initial manager device) inputs).currentSource.toList := by
  refine ⟨?_, ?_⟩
  · exact run_trace (I := fun s => s.offers.Nodup) offers offerAccess
      (fun _ _ hs hi => (offers_handle hs hi).1) (fun _ _ hs hi => (offers_handle hs hi).2)
      (show (initial manager device).offers.Nodup from List.nodup_nil) h
  · exact run_trace (I := fun _ => True) (fun s => s.currentSource.toList) sourceAccess
      (fun _ _ _ _ => trivial) (fun s i _ _ => source_handle s i) trivial h

end DataControlState

/-! ### The selection -/

/-- What the compositor has said: the MIME types of each offer, and which one is the selection. -/
structure Announced where
  selected : Option OfferId
  mimeTypes : OfferId → List Mime

/-- Nothing is selected, and no offer has a type. -/
def Announced.initial : Announced :=
  ⟨none, fun _ => []⟩

/-- The record is made from the events alone, not from what the client does with them. -/
def Announced.see (w : Announced) : DataControlInput → Announced
  | .event (.dataOffer offer) => { w with mimeTypes := Function.update w.mimeTypes offer [] }
  | .event (.offer offer mimeType) =>
    { w with mimeTypes := Function.update w.mimeTypes offer (w.mimeTypes offer ++ [mimeType]) }
  | .event (.selection offer) => { w with selected := offer }
  | .event .finished => { w with selected := none }
  | _ => w

namespace DataControlState

/-- The client beside what the compositor has said. -/
def observed : Machine (DataControlState × Announced) DataControlInput DataControlAction where
  step s i := (((s.1.handle i).1, s.2.see i), (s.1.handle i).2)

/-- A selection is that of the offer that was introduced last, and of which the client has made
nothing yet. -/
def SelectsPending (s : DataControlState × Announced) : DataControlInput → Prop
  | .event (.selection (some offer)) => s.1.pendingOffer.map Prod.fst = some offer
  | _ => True

theorem currentOffer_setSelection (s : DataControlState) (mimeTypes : List Mime)
    (data : SourceData) : (s.setSelection mimeTypes data).1.currentOffer = s.currentOffer := by
  rw [setSelection]
  split
  · rfl
  · dsimp only
    split <;> rfl

/-- The current offer changes with the selection, and with the end of the device. -/
theorem currentOffer_handle (s : DataControlState) (i : DataControlInput) :
    (s.handle i).1.currentOffer = match i with
      | .event (.selection (some _)) => s.pendingOffer.map Prod.fst
      | .event (.selection none) => none
      | .event .finished => none
      | _ => s.currentOffer := by
  obtain event | command := i
  · cases event with
    | selection offer => cases offer <;> rfl
    | _ => rfl
  · cases command with
    | setSelection mimeTypes data => exact s.currentOffer_setSelection mimeTypes data
    | _ => rfl

/-- **The current offer.** All along a run it is the one that the compositor has selected exactly if
each selection was of the offer that was introduced last. -/
theorem selection_iff (manager device : Option DataControlProtocol)
    (inputs : List DataControlInput) :
    observed.Always (fun s => s.1.currentOffer = s.2.selected)
        (initial manager device, Announced.initial) inputs ↔
      observed.Along SelectsPending (initial manager device, Announced.initial) inputs := by
  refine Machine.always_iff_along
    (I := fun s : DataControlState × Announced => s.1.currentOffer = s.2.selected)
    ?_ (fun _ hs => hs) ?_ rfl
  · intro s i hs hi
    show (s.1.handle i).1.currentOffer = (s.2.see i).selected
    rw [currentOffer_handle]
    obtain event | command := i
    · cases event with
      | selection offer =>
        cases offer with
        | none => rfl
        | some offer => exact hi
      | finished => rfl
      | _ => exact hs
    · exact hs
  · intro s i hs hi
    show (s.1.handle i).1.currentOffer ≠ (s.2.see i).selected
    rw [currentOffer_handle]
    obtain event | command := i
    · cases event with
      | selection offer =>
        cases offer with
        | none => exact absurd trivial hi
        | some offer => exact hi
      | _ => exact absurd trivial hi
    · exact absurd trivial hi

/-- The order of the protocol: offers have new numbers, the MIME types of an offer follow it, and
then it is selected or not. A run in which the device is finished is not in order: no event of its
selection comes after that, and what it leaves is said separately. -/
def InOrder (s : DataControlState × Announced) : DataControlInput → Prop
  | .event (.dataOffer offer) => offer ∉ s.1.offers
  | .event (.offer offer _) => s.1.pendingOffer.map Prod.fst = some offer
  | .event (.selection (some offer)) => s.1.pendingOffer.map Prod.fst = some offer
  | .event .finished => False
  | _ => True

instance (s : DataControlState × Announced) : DecidablePred (InOrder s)
  | .event (.dataOffer offer) => inferInstanceAs (Decidable (offer ∉ s.1.offers))
  | .event (.offer offer _) =>
    inferInstanceAs (Decidable (s.1.pendingOffer.map Prod.fst = some offer))
  | .event (.selection (some offer)) =>
    inferInstanceAs (Decidable (s.1.pendingOffer.map Prod.fst = some offer))
  | .event (.selection none) => isTrue trivial
  | .event (.primarySelection _) => isTrue trivial
  | .event .finished => isFalse id
  | .event (.send _) => isTrue trivial
  | .event .cancelled => isTrue trivial
  | .command _ => isTrue trivial

/-- The client knows what the compositor has said of the selection and of the pending offer. -/
structure Informed (s : DataControlState × Announced) : Prop where
  nodup : s.1.offers.Nodup
  current : s.1.currentOffer = s.2.selected
  pending : ∀ p ∈ s.1.pendingOffer, p.2 = s.2.mimeTypes p.1
  shared : s.1.mimeTypes = s.2.selected.elim [] s.2.mimeTypes

/-- What is named for an offer does not matter while another one is selected. -/
theorem Informed.selected_update {s : DataControlState × Announced} (hs : Informed s)
    {offer : OfferId} (hoffer : offer ∉ s.1.currentOffer.toList) (types : List Mime) :
    s.2.selected.elim [] (Function.update s.2.mimeTypes offer types) =
      s.2.selected.elim [] s.2.mimeTypes := by
  cases h : s.2.selected with
  | none => rfl
  | some selected =>
    show Function.update s.2.mimeTypes offer types selected = s.2.mimeTypes selected
    refine Function.update_of_ne ?_ _ _
    rintro rfl
    exact hoffer (Option.mem_toList.mpr (hs.current.trans h))

theorem Informed.step {s : DataControlState × Announced} {i : DataControlInput} (hs : Informed s)
    (hi : InOrder s i) : Informed (observed.step s i).1 := by
  obtain ⟨s, w⟩ := s
  have hselected {offer : OfferId} (h : offer ∉ s.currentOffer.toList) (types : List Mime) :
      w.selected.elim [] (Function.update w.mimeTypes offer types) =
        w.selected.elim [] w.mimeTypes := hs.selected_update h types
  obtain ⟨hnodup, hcurrent, hpending, hshared⟩ := hs
  obtain event | command := i
  · cases event with
    | dataOffer offer =>
      refine ⟨(offers_handle (i := .event (.dataOffer offer)) hnodup hi).1, hcurrent, ?_, ?_⟩
      · intro p hp
        rw [← Option.some_inj.mp hp]
        show [] = Function.update w.mimeTypes offer [] offer
        rw [Function.update_self]
      · exact hshared.trans (hselected (fun h => hi (List.mem_append_right _ h)) []).symm
    | offer offer mimeType =>
      have hne : offer ∉ s.currentOffer.toList := by
        intro hin
        have hmem : offer ∈ (s.pendingOffer.map Prod.fst).toList := Option.mem_toList.mpr hi
        exact (List.nodup_append.mp hnodup).2.2 offer hmem offer hin rfl
      refine ⟨?_, hcurrent, ?_, ?_⟩
      · show (s.onOfferMimeType mimeType).offers.Nodup
        rw [offers_onOfferMimeType]
        exact hnodup
      · intro p hp
        obtain ⟨q, hq, rfl⟩ := Option.map_eq_some_iff.mp hp
        have hfst : q.1 = offer :=
          Option.some_inj.mp ((congrArg (Option.map Prod.fst) hq).symm.trans hi)
        show q.2 ++ [mimeType] =
          Function.update w.mimeTypes offer (w.mimeTypes offer ++ [mimeType]) q.1
        rw [hfst, Function.update_self, ← hfst, hpending q hq]
      · exact hshared.trans (hselected hne _).symm
    | selection offer =>
      cases offer with
      | none =>
        exact ⟨List.nodup_nil, rfl, fun p hp => absurd hp (Option.not_mem_none p), rfl⟩
      | some offer =>
        refine ⟨(List.nodup_append.mp hnodup).1, hi,
          fun p hp => absurd hp (Option.not_mem_none p), ?_⟩
        have hi : s.pendingOffer.map Prod.fst = some offer := hi
        obtain ⟨q, hq, rfl⟩ := Option.map_eq_some_iff.mp hi
        show (s.onSelection).1.mimeTypes = w.mimeTypes q.1
        rw [onSelection, hq]
        exact hpending q hq
    | primarySelection offer => exact ⟨hnodup, hcurrent, hpending, hshared⟩
    | finished => exact absurd hi id
    | send mimeType => exact ⟨hnodup, hcurrent, hpending, hshared⟩
    | cancelled => exact ⟨hnodup, hcurrent, hpending, hshared⟩
  · cases command with
    | setSelection mimeTypes data =>
      have hsame : (s.setSelection mimeTypes data).1.pendingOffer = s.pendingOffer ∧
          (s.setSelection mimeTypes data).1.mimeTypes = s.mimeTypes := by
        rw [setSelection]
        split
        · exact ⟨rfl, rfl⟩
        · dsimp only
          split <;> exact ⟨rfl, rfl⟩
      refine ⟨?_, (s.currentOffer_setSelection mimeTypes data).trans hcurrent, ?_,
        hsame.2.trans hshared⟩
      · show (s.setSelection mimeTypes data).1.offers.Nodup
        rw [offers_setSelection]
        exact hnodup
      · intro p hp
        exact hpending p (hsame.1 ▸ hp)
    | updateSourceData mimeType data => exact ⟨hnodup, hcurrent, hpending, hshared⟩
    | receiveFromOffer mimeType => exact ⟨hnodup, hcurrent, hpending, hshared⟩

/-- **The shared MIME types.** Along a run in the order of the protocol that does not finish the
device, with offers for the primary selection in between and any commands, they are those that the
compositor has named for the offer it has selected, and that is the current one. If the device is
finished then, the offer is gone, but its MIME types are shared as before. -/
theorem mimeTypes_of_run (manager device : Option DataControlProtocol)
    {inputs : List DataControlInput}
    (h : observed.Along InOrder (initial manager device, Announced.initial) inputs) :
    observed.Always (fun s => s.1.currentOffer = s.2.selected ∧
        s.1.mimeTypes = s.2.selected.elim [] s.2.mimeTypes)
      (initial manager device, Announced.initial) inputs ∧
    ∀ s, observed.exec (initial manager device, Announced.initial) inputs = s →
      (s.1.handle (.event .finished)).1.currentOffer = none ∧
        (s.1.handle (.event .finished)).1.mimeTypes = s.2.selected.elim [] s.2.mimeTypes := by
  have halways : observed.Always (fun s => s.1.currentOffer = s.2.selected ∧
      s.1.mimeTypes = s.2.selected.elim [] s.2.mimeTypes)
      (initial manager device, Announced.initial) inputs :=
    Machine.always_of_invariant (I := Informed) (C := InOrder) (fun _ _ hs hi => hs.step hi)
      (fun _ hs => ⟨hs.current, hs.shared⟩)
      ⟨List.nodup_nil, rfl, fun p hp => absurd hp (Option.not_mem_none p), rfl⟩ h
  refine ⟨halways, ?_⟩
  rintro s rfl
  -- the end of the device does not touch the shared types
  exact ⟨rfl, halways.last.2⟩

/-- A selection, a primary selection and our own source in between. -/
def sampleInputs : List DataControlInput :=
  [.event (.dataOffer 1), .event (.offer 1 "text/plain"), .event (.selection (some 1)),
    .event (.dataOffer 2), .event (.offer 2 "text/html"),
    .event (.primarySelection (some 2)),
    .command (.setSelection ["text/plain"] fun _ => none), .event (.dataOffer 3),
    .event (.offer 3 "image/png"), .event (.selection (some 3))]

theorem objects_of_run_sample :
    run [] ((machine.trace (initial (some .ext) (some .ext)) sampleInputs).flatMap offerAccess) =
        some [3] ∧
      run [] ((machine.trace (initial (some .ext) (some .ext)) sampleInputs).flatMap sourceAccess) =
        some [0] :=
  objects_of_run (some .ext) (some .ext) sampleInputs (by decide)

theorem mimeTypes_of_run_sample :
    (observed.exec (initial (some .ext) (some .ext), Announced.initial) sampleInputs).1.mimeTypes =
        ["image/png"] ∧
      (observed.exec (initial (some .ext) (some .ext), Announced.initial)
        (sampleInputs ++ [.event .finished])).1.mimeTypes = ["image/png"] := by
  have h : observed.Along InOrder (initial (some .ext) (some .ext), Announced.initial)
      sampleInputs := by
    decide
  refine ⟨(mimeTypes_of_run (some .ext) (some .ext) h).1.last.2, ?_⟩
  rw [Machine.exec_append]
  exact ((mimeTypes_of_run (some .ext) (some .ext) h).2 _ rfl).2

end DataControlState

end Wayland

end Cheirizo
