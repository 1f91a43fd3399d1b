import Cheirizo.Clipboard.Servable
import Cheirizo.Wayland.DataControl

/-!
# The data-control clipboard provider

`rdp/channels/clipboard/providers/data_control.rs` and
`services/clipboard/{mod,ext_backend,wlr_backend}.rs` of the portal. The provider announces what the
RDP client has copied, and provides data for it, before or after. It keeps the provided data for the
next announcement and passes it on to the thread of the Wayland client, as commands in a channel.
Reading the desktop's selection, it looks at the data of its own last announcement first.

The two backends differ in nothing that matters here.

## What is outside

The provider runs its operations concurrently, each under the locks it needs. Here an operation is
done as a whole before the next one begins, and only the thread of the Wayland client runs between
them. A command is put into the channel without fail: that the thread is gone, which the provider
reports as an error, is left out. Data that the desktop sends through a pipe is not modelled, only
that it is asked for.

## Main definitions

* `MimeMatches` — a type of the desktop is taken for one that is asked for
* `SelectionSystem.machine` — the provider, the channel and the Wayland client
* `servedBytes`, `cachedBytes` — what a paste and a read get, by the operations so far

## Main results

* `findMimeMatch_spec`, `findMimeMatch_eq_none` — when there is such a type
* `served_of_run` — a paste gets what was provided, up to commands in the channel
* `readSelection_of_run` — a read gets what was announced, or asks the desktop
-/

namespace Cheirizo

namespace Clipboard

open Wayland

/-! ### MIME types -/

/-- The type itself, or for texts one with the same base. -/
def MimeMatches (requested actual : Mime) : Prop :=
  actual = requested ∨ startsWith "text/" requested = true ∧ mimeBase actual = mimeBase requested
  deriving Decidable

/-- What is found is available and matches. -/
theorem findMimeMatch_spec {requested actual : Mime} {available : List Mime}
    (h : findMimeMatch requested available = some actual) :
    actual ∈ available ∧ MimeMatches requested actual := by
  have hfind : ∀ {t : Mime}, available.find? (· = t) = some actual →
      actual ∈ available ∧ actual = t := fun hf =>
    ⟨List.mem_of_find?_eq_some hf, by simpa using List.find?_some hf⟩
  rw [findMimeMatch, Option.or_eq_some_iff] at h
  obtain h | ⟨-, h⟩ := h
  · exact ⟨(hfind h).1, Or.inl (hfind h).2⟩
  split at h
  · rename_i htext
    dsimp only at h
    rw [Option.or_eq_some_iff] at h
    obtain h | ⟨-, h⟩ := h
    · split at h
      · obtain ⟨hin, rfl⟩ := hfind h
        exact ⟨hin, Or.inr ⟨htext, mimeBase_mimeBase _⟩⟩
      · rename_i hplain
        have hplain : ';' ∉ requested.toList := fun hmem =>
          hplain (List.contains_iff_mem.mpr hmem)
        rw [Option.or_eq_some_iff] at h
        obtain h | ⟨-, h⟩ := h
        · obtain ⟨hin, rfl⟩ := hfind h
          exact ⟨hin, Or.inr ⟨htext, mimeBase_append_parameter hplain "charset=utf-8".toList⟩⟩
        · obtain ⟨hin, rfl⟩ := hfind h
          exact ⟨hin, Or.inr ⟨htext, mimeBase_append_parameter hplain "charset=UTF-8".toList⟩⟩
    · exact ⟨List.mem_of_find?_eq_some h, Or.inr ⟨htext, by simpa using List.find?_some h⟩⟩
  · cases h

/-- And something is found if there is a type that matches. -/
theorem findMimeMatch_eq_none {requested : Mime} {available : List Mime} :
    findMimeMatch requested available = none ↔ ∀ m ∈ available, ¬ MimeMatches requested m := by
  rw [← Option.not_isSome_iff_eq_none, findMimeMatch_isSome]
  constructor
  · intro h m hm hmatch
    obtain rfl | ⟨htext, hbase⟩ := hmatch
    · exact h (Or.inl hm)
    · exact h (Or.inr ⟨htext, m, hm, hbase⟩)
  · intro h hfound
    obtain hin | ⟨htext, m, hm, hbase⟩ := hfound
    · exact h requested hin (Or.inl rfl)
    · exact h m hm (Or.inr ⟨htext, hbase⟩)

/-! ### The provider, the channel and the Wayland client -/

/-- The data for the next announcement, and that of the last one. -/
structure DataControlProvider where
  pending : SourceData
  localData : SourceData
  localMimeTypes : List Mime

/-- The provider, the commands under way, and the Wayland client. -/
structure SelectionSystem where
  provider : DataControlProvider
  commands : List ClipboardCommand
  desktop : DataControlState

/-- What the clipboard of the server asks of the provider. -/
inductive ProviderOp where
  | announceFormats (mimeTypes : List Mime)
  | provideData (mimeType : Mime) (data : Bytes)

/-- An operation of the provider, the next command at the Wayland client, or an event there. -/
inductive SelectionInput where
  | op (op : ProviderOp)
  | deliver
  | event (event : DataControlEvent)

/-- The data of an announcement: of what is kept, that for its types. -/
def collect (pending : SourceData) (mimeTypes : List Mime) : SourceData :=
  fun m => if m ∈ mimeTypes then pending m else none

/-- How a read is answered, or where it is passed on to. -/
inductive Reading where
  | cached (data : Bytes)
  | requested (mimeType : Mime)
  | absent
  deriving DecidableEq, Repr

namespace SelectionSystem

/-- Nothing was provided or announced. -/
def initial (protocol : DataControlProtocol) : SelectionSystem where
  provider := ⟨fun _ => none, fun _ => none, []⟩
  commands := []
  desktop := .initial (some protocol) (some protocol)

variable (s : SelectionSystem)

/-- The backend's `set_clipboard`. -/
def setClipboard (mimeTypes : List Mime) (data : SourceData) : SelectionSystem :=
  { s with
    provider := { s.provider with localData := data, localMimeTypes := mimeTypes }
    commands := s.commands ++ [.setSelection mimeTypes data] }

/-- The data that was provided goes with the announcement, and is then gone. -/
def announceFormats (mimeTypes : List Mime) : SelectionSystem :=
  let s := s.setClipboard mimeTypes (collect s.provider.pending mimeTypes)
  { s with provider := { s.provider with pending := fun _ => none } }

/-- The data is kept for the next announcement, and goes to the Wayland client for the last. -/
def provideData (mimeType : Mime) (data : Bytes) : SelectionSystem :=
  { s with
    provider :=
      { s.provider with pending := Function.update s.provider.pending mimeType (some data) }
    commands := s.commands ++ [.updateSourceData mimeType data] }

/-- `read_data`, up to the answer through the pipe. -/
def readSelection (mimeType : Mime) : Reading :=
  match s.provider.localData mimeType with
  | some data => .cached data
  | none =>
    match findMimeMatch mimeType s.desktop.mimeTypes with
    | some actual => .requested actual
    | none => .absent

/-- The client takes the oldest command. -/
def deliver : SelectionSystem × List DataControlAction :=
  match s.commands with
  | [] => (s, [])
  | command :: commands =>
    let (desktop, actions) := s.desktop.handle (.command command)
    ({ s with commands := commands, desktop := desktop }, actions)

/-- The system, with the requests of the Wayland client as outputs. -/
def machine : Machine SelectionSystem SelectionInput DataControlAction where
  step s
    | .op (.announceFormats mimeTypes) => (s.announceFormats mimeTypes, [])
    | .op (.provideData mimeType data) => (s.provideData mimeType data, [])
    | .deliver => s.deliver
    | .event event =>
      let (desktop, actions) := s.desktop.handle (.event event)
      ({ s with desktop := desktop }, actions)

end SelectionSystem

/-! ### By the operations so far -/

/-- The operation of the provider, if the input is one. -/
def SelectionInput.operation : SelectionInput → Option ProviderOp
  | .op x => some x
  | _ => none

/-- The operations, the latest first. -/
def history (inputs : List SelectionInput) : List ProviderOp :=
  (inputs.filterMap SelectionInput.operation).reverse

/-- What was provided last for a type since the last announcement. -/
def providedSince : List ProviderOp → SourceData
  | .provideData mimeType data :: earlier => Function.update (providedSince earlier) mimeType data
  | .announceFormats _ :: _ => fun _ => none
  | [] => fun _ => none

/-- What the last announcement came with: provided between the one before it and itself. -/
def cachedBytes : List ProviderOp → SourceData
  | .provideData _ _ :: earlier => cachedBytes earlier
  | .announceFormats mimeTypes :: earlier => collect (providedSince earlier) mimeTypes
  | [] => fun _ => none

/-- What a paste gets: provided since the last announcement, or else what that came with. -/
def servedBytes (ops : List ProviderOp) : SourceData :=
  fun m => (providedSince ops m).or (cachedBytes ops m)

theorem servedBytes_provideData (mimeType : Mime) (data : Bytes) (earlier : List ProviderOp) :
    servedBytes (.provideData mimeType data :: earlier) =
      Function.update (servedBytes earlier) mimeType (some data) := by
  funext m
  rw [servedBytes, providedSince, cachedBytes]
  by_cases hm : m = mimeType
  · rw [hm, Function.update_self, Function.update_self]
    rfl
  · rw [Function.update_of_ne hm, Function.update_of_ne hm]
    rfl

/-- The command of an operation after others. -/
def commandOf : ProviderOp → List ProviderOp → ClipboardCommand
  | .announceFormats mimeTypes, earlier =>
    .setSelection mimeTypes (collect (providedSince earlier) mimeTypes)
  | .provideData mimeType data, _ => .updateSourceData mimeType data

/-- The commands of operations, the earliest first, after others. -/
def commandsOf : List ProviderOp → List ProviderOp → List ClipboardCommand
  | [], _ => []
  | op :: later, earlier => commandOf op earlier :: commandsOf later (op :: earlier)

theorem commandsOf_append (op : ProviderOp) (later earlier : List ProviderOp) :
    commandsOf (later ++ [op]) earlier =
      commandsOf later earlier ++ [commandOf op (later.reverse ++ earlier)] := by
  induction later generalizing earlier with
  | nil => rfl
  | cons first later ih =>
    rw [List.cons_append, commandsOf, commandsOf, ih, List.reverse_cons, List.append_assoc]
    rfl

/-! ### Runs -/

/-- The source is not taken away: no other client selects something, and the device stays. -/
def KeepsSource : SelectionInput → Prop
  | .event .cancelled => False
  | .event .finished => False
  | _ => True

/-- The provider and the channel after some operations, the last of which are still on their way. -/
structure Follows (s : SelectionSystem) (later earlier : List ProviderOp) : Prop where
  pending : s.provider.pending = providedSince (later.reverse ++ earlier)
  localData : s.provider.localData = cachedBytes (later.reverse ++ earlier)
  commands : s.commands = commandsOf later earlier

/-- The desktop after the operations that have arrived. -/
structure Serves (s : SelectionSystem) (protocol : DataControlProtocol)
    (earlier : List ProviderOp) : Prop where
  manager : s.desktop.manager = some protocol
  device : s.desktop.device = some protocol
  data : s.desktop.sourceData = servedBytes earlier

theorem Follows.op {s : SelectionSystem} {later earlier : List ProviderOp}
    (h : Follows s later earlier) (op : ProviderOp) :
    Follows (SelectionSystem.machine.step s (.op op)).1 (later ++ [op]) earlier := by
  have hreverse : (later ++ [op]).reverse ++ earlier = op :: (later.reverse ++ earlier) := by
    rw [List.reverse_append]
    rfl
  cases op with
  | announceFormats mimeTypes =>
    refine ⟨?_, ?_, ?_⟩
    · rw [hreverse]
      rfl
    · rw [hreverse, cachedBytes, ← h.pending]
      rfl
    · rw [commandsOf_append, ← h.commands, commandOf, ← h.pending]
      rfl
  | provideData mimeType data =>
    refine ⟨?_, ?_, ?_⟩
    · rw [hreverse, providedSince, ← h.pending]
      rfl
    · rw [hreverse, cachedBytes, ← h.localData]
      rfl
    · rw [commandsOf_append, ← h.commands]
      rfl

theorem Follows.event {s : SelectionSystem} {later earlier : List ProviderOp}
    (h : Follows s later earlier) (event : DataControlEvent) :
    Follows (SelectionSystem.machine.step s (.event event)).1 later earlier :=
  ⟨h.pending, h.localData, h.commands⟩

/-- The next command is that of the first operation that has not arrived. -/
theorem Follows.deliver {s : SelectionSystem} {op : ProviderOp} {later earlier : List ProviderOp}
    (h : Follows s (op :: later) earlier) :
    s.deliver.1.desktop = (s.desktop.handle (.command (commandOf op earlier))).1 ∧
      Follows s.deliver.1 later (op :: earlier) := by
  have hreverse : (op :: later).reverse ++ earlier = later.reverse ++ op :: earlier := by
    rw [List.reverse_cons, List.append_assoc]
    rfl
  have hcommands := h.commands
  have hdeliver : s.deliver = ({ s with
      commands := commandsOf later (op :: earlier)
      desktop := (s.desktop.handle (.command (commandOf op earlier))).1 },
      (s.desktop.handle (.command (commandOf op earlier))).2) := by
    rw [SelectionSystem.deliver, hcommands, commandsOf]
  rw [hdeliver]
  exact ⟨rfl, hreverse ▸ h.pending, hreverse ▸ h.localData, rfl⟩

theorem Follows.deliver_nil {s : SelectionSystem} {earlier : List ProviderOp}
    (h : Follows s [] earlier) : s.deliver = (s, []) := by
  rw [SelectionSystem.deliver, h.commands, commandsOf]

theorem Serves.arrive {s t : SelectionSystem} {protocol : DataControlProtocol}
    {earlier : List ProviderOp} (h : Serves s protocol earlier) (op : ProviderOp)
    (ht : t.desktop = (s.desktop.handle (.command (commandOf op earlier))).1) :
    Serves t protocol (op :: earlier) := by
  cases op with
  | announceFormats mimeTypes =>
    have hset : (s.desktop.setSelection mimeTypes (collect (providedSince earlier) mimeTypes)).1 =
        { s.desktop with
          currentSource := some s.desktop.nextSource
          sourceData := collect (providedSince earlier) mimeTypes
          nextSource := s.desktop.nextSource + 1 } := by
      rw [DataControlState.setSelection]
      split
      · rename_i hnone
        exact absurd (h.manager.symm.trans hnone) (Option.some_ne_none _)
      · rename_i bound hbound
        obtain rfl := Option.some_inj.mp (h.manager.symm.trans hbound)
        dsimp only
        rw [if_pos h.device]
    have ht := ht.trans hset
    exact ⟨ht ▸ h.manager, ht ▸ h.device, ht ▸ rfl⟩
  | provideData mimeType data =>
    refine ⟨ht ▸ h.manager, ht ▸ h.device, ?_⟩
    rw [servedBytes_provideData, ← h.data, ht]
    rfl

theorem Serves.event {s : SelectionSystem} {protocol : DataControlProtocol}
    {earlier : List ProviderOp} (h : Serves s protocol earlier) {event : DataControlEvent}
    (hevent : KeepsSource (.event event)) :
    Serves (SelectionSystem.machine.step s (.event event)).1 protocol earlier := by
  cases event with
  | selection offer => cases offer <;> exact ⟨h.manager, h.device, h.data⟩
  | finished => exact absurd hevent id
  | cancelled => exact absurd hevent id
  | _ => exact ⟨h.manager, h.device, h.data⟩

theorem history_op (op : ProviderOp) (inputs : List SelectionInput) :
    history (.op op :: inputs) = history inputs ++ [op] := by
  have hcons : (SelectionInput.op op :: inputs).filterMap SelectionInput.operation =
      op :: inputs.filterMap SelectionInput.operation := rfl
  rw [history, hcons, List.reverse_cons]
  rfl

/-- The provider and the channel after every run. -/
theorem Follows.exec {s : SelectionSystem} {later earlier : List ProviderOp}
    (h : Follows s later earlier) (inputs : List SelectionInput) :
    ∃ later' earlier', Follows (SelectionSystem.machine.exec s inputs) later' earlier' ∧
      later'.reverse ++ earlier' = history inputs ++ (later.reverse ++ earlier) ∧
      ((∀ i ∈ inputs, KeepsSource i) → ∀ protocol, Serves s protocol earlier →
        Serves (SelectionSystem.machine.exec s inputs) protocol earlier') := by
  induction inputs generalizing s later earlier with
  | nil => exact ⟨later, earlier, h, rfl, fun _ _ hserves => hserves⟩
  | cons i inputs ih =>
    have htail : (∀ j ∈ i :: inputs, KeepsSource j) → ∀ j ∈ inputs, KeepsSource j :=
      fun hkeep j hj => hkeep j (List.mem_cons_of_mem _ hj)
    cases i with
    | op op =>
      obtain ⟨later', earlier', hfollows, hhistory, hserves⟩ := ih (h.op op)
      refine ⟨later', earlier', hfollows, ?_, fun hkeep protocol hs =>
        hserves (htail hkeep) protocol ⟨?_, ?_, ?_⟩⟩
      · rw [hhistory, history_op, List.reverse_append, List.append_assoc, List.append_assoc]
        rfl
      · cases op <;> exact hs.manager
      · cases op <;> exact hs.device
      · cases op <;> exact hs.data
    | deliver =>
      cases later with
      | nil =>
        have hstep : (SelectionSystem.machine.step s .deliver).1 = s :=
          congrArg Prod.fst h.deliver_nil
        rw [Machine.exec_cons, hstep]
        obtain ⟨later', earlier', hfollows, hhistory, hserves⟩ := ih h
        exact ⟨later', earlier', hfollows, hhistory, fun hkeep _ hs => hserves (htail hkeep) _ hs⟩
      | cons op later =>
        obtain ⟨hdesktop, hnext⟩ := h.deliver
        obtain ⟨later', earlier', hfollows, hhistory, hserves⟩ := ih hnext
        refine ⟨later', earlier', hfollows, ?_, fun hkeep _ hs =>
          hserves (htail hkeep) _ (hs.arrive op hdesktop)⟩
        rw [hhistory, List.reverse_cons, List.append_assoc]
        rfl
    | event event =>
      obtain ⟨later', earlier', hfollows, hhistory, hserves⟩ := ih (h.event event)
      exact ⟨later', earlier', hfollows, hhistory, fun hkeep _ hs =>
        hserves (htail hkeep) _ (hs.event (hkeep _ List.mem_cons_self))⟩

theorem follows_initial (protocol : DataControlProtocol) :
    Follows (SelectionSystem.initial protocol) [] [] :=
  ⟨rfl, rfl, rfl⟩

theorem length_commandsOf (later earlier : List ProviderOp) :
    (commandsOf later earlier).length = later.length := by
  induction later generalizing earlier with
  | nil => rfl
  | cons op later ih => rw [commandsOf, List.length_cons, ih, List.length_cons]

/-- **What a paste gets.** In every interleaving of the operations of the provider with commands
reaching the Wayland client and with events there, as long as no other client takes the selection,
a paste gets what was provided last for its type since the last announcement that has arrived, or
else what was provided between the announcement before and that one. What has arrived is all but the
commands still in the channel. -/
theorem served_of_run (protocol : DataControlProtocol) (inputs : List SelectionInput)
    (hkeep : ∀ i ∈ inputs, KeepsSource i) :
    ∃ arrived : List ProviderOp, arrived <:+ history inputs ∧
      (history inputs).length = arrived.length +
        (SelectionSystem.machine.exec (.initial protocol) inputs).commands.length ∧
      ∀ mimeType,
        (SelectionSystem.machine.exec (.initial protocol) inputs).desktop.served mimeType =
          (servedBytes arrived mimeType).or
            (servedBytes arrived (DataControlState.strippedMime mimeType)) := by
  obtain ⟨later, earlier, hfollows, hhistory, hserves⟩ := (follows_initial protocol).exec inputs
  have hserves := hserves hkeep protocol ⟨rfl, rfl, rfl⟩
  have hhistory : later.reverse ++ earlier = history inputs :=
    hhistory.trans (List.append_nil _)
  refine ⟨earlier, ⟨later.reverse, hhistory⟩, ?_, fun mimeType => ?_⟩
  · rw [← hhistory, List.length_append, List.length_reverse, hfollows.commands,
      length_commandsOf, Nat.add_comm]
  · rw [DataControlState.served, hserves.data]

/-- **What a read gets.** In every run, whatever has been selected on the desktop since, a read gets
the data that our last announcement came with, if it came with any for the type. Only otherwise is
the selection asked, for one of its types that matches, and none exactly if none does. -/
theorem readSelection_of_run (protocol : DataControlProtocol) (inputs : List SelectionInput)
    (mimeType : Mime) :
    let s := SelectionSystem.machine.exec (.initial protocol) inputs
    (∀ data, s.readSelection mimeType = .cached data ↔
      cachedBytes (history inputs) mimeType = some data) ∧
    (∀ actual, s.readSelection mimeType = .requested actual →
      actual ∈ s.desktop.mimeTypes ∧ MimeMatches mimeType actual) ∧
    (s.readSelection mimeType = .absent ↔ cachedBytes (history inputs) mimeType = none ∧
      ∀ m ∈ s.desktop.mimeTypes, ¬ MimeMatches mimeType m) := by
  intro s
  obtain ⟨later, earlier, hfollows, hhistory, -⟩ := (follows_initial protocol).exec inputs
  have hlocal : s.provider.localData = cachedBytes (history inputs) := by
    rw [hfollows.localData, hhistory]
    exact congrArg _ (List.append_nil _)
  rw [SelectionSystem.readSelection, hlocal]
  cases hcached : cachedBytes (history inputs) mimeType with
  | some data =>
    dsimp only
    refine ⟨fun d => ?_, (fun _ h => by cases h), iff_of_false (by simp) (by simp)⟩
    rw [Reading.cached.injEq, Option.some_inj]
  | none =>
    cases hfound : findMimeMatch mimeType s.desktop.mimeTypes with
    | some actual =>
      refine ⟨fun _ => iff_of_false (by simp) (by simp), fun a ha => ?_, ?_⟩
      · rw [Reading.requested.injEq] at ha
        exact ha ▸ findMimeMatch_spec hfound
      · refine iff_of_false (by simp) fun h => ?_
        rw [findMimeMatch_eq_none.mpr h.2] at hfound
        cases hfound
    | none =>
      exact ⟨fun _ => iff_of_false (by simp) (by simp), (fun _ h => by cases h),
        iff_of_true rfl ⟨rfl, findMimeMatch_eq_none.mp hfound⟩⟩

/-- Data provided for the first announcement is what the second one comes with. -/
theorem served_of_run_second :
    (SelectionSystem.machine.exec (.initial .ext)
      [.op (.announceFormats ["a"]), .op (.provideData "a" [1]), .deliver, .deliver,
        .op (.announceFormats ["a"]), .deliver]).desktop.served "a" = some [1] := by
  obtain ⟨arrived, hsuffix, hlength, hserved⟩ := served_of_run .ext
    [.op (.announceFormats ["a"]), .op (.provideData "a" [1]), .deliver, .deliver,
      .op (.announceFormats ["a"]), .deliver] (by
        intro i hi
        simp only [List.mem_cons, List.not_mem_nil, or_false] at hi
        obtain rfl | rfl | rfl | rfl | rfl | rfl := hi <;> trivial)
  have harrived := hsuffix.eq_of_length hlength.symm
  rw [hserved, harrived]
  decide

end Clipboard

end Cheirizo
