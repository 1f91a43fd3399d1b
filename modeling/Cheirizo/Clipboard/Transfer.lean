import Cheirizo.Clipboard.Files
import Cheirizo.Clock
import Cheirizo.Lib.Machine
import Mathlib.Data.List.Defs
import Mathlib.Data.UInt

/-!
# Chunked transfers

`src/rdp/channels/clipboard/core/transfer.rs`: a sender cuts its data into chunks, and a receiver,
told the length and the hash beforehand, collects chunks until it has as many bytes as were
announced and then puts them together. Both are the same engine.

## What is read where

The clock is read once for the timeout and once more for the estimate of the time that remains, so
a call has two readings. The estimate is computed in floating point: it is the parameter `eta`, of
the bytes that remain, the bytes transferred and the time they took. The hash is the parameter
`computeHash`. Arithmetic on byte counts wraps, as in a release build; `Underflows` says where a
debug build stops.

## Main definitions

* `TransferEngine` with `prepareSend`, `startReceive`, `receiveChunk`, `finalizeReceive`, `cancel`
* `transferMachine` — the calls of a receiver
* `Fits` — a chunk is no longer than what is missing

## Main results

* `along_sound_iff` — a receiver does not over-run along exactly the runs whose accepted chunks fit
* `receive_prepareSend_iff` — what is sent in chunks arrives, unless it is empty
-/

namespace Cheirizo

namespace Clipboard

/-! ### The engine -/

/-- How far a transfer is. -/
inductive TransferState where
  | pending
  | inProgress
  | completed
  | cancelled
  | failed
  deriving DecidableEq, Repr

namespace TransferState

/-- Chunks are still taken. -/
def isActive : TransferState → Bool
  | .pending => true
  | .inProgress => true
  | _ => false

/-- As `{:?}` prints it. -/
def debug : TransferState → String
  | .pending => "Pending"
  | .inProgress => "InProgress"
  | .completed => "Completed"
  | .cancelled => "Cancelled"
  | .failed => "Failed"

end TransferState

/-- What is known of a transfer under way. -/
structure TransferProgress where
  totalBytes : UInt64
  transferredBytes : UInt64
  state : TransferState
  startedAt : Option Instant
  etaMs : Option UInt64
  deriving DecidableEq, Repr

/-- A transfer of which nothing has arrived. -/
def TransferProgress.new (totalBytes : UInt64) : TransferProgress where
  totalBytes := totalBytes
  transferredBytes := 0
  state := .pending
  startedAt := none
  etaMs := none

/-- The limits of a transfer. -/
structure TransferConfig where
  chunkSize : UInt64
  maxSize : UInt64
  timeoutMs : UInt64
  verifyIntegrity : Bool
  deriving DecidableEq, Repr

/-- The default configuration: chunks of 64 KiB, at most 16 MiB, within 30 seconds. -/
def TransferConfig.default : TransferConfig := ⟨64 * 1024, 16 * 1024 * 1024, 30000, true⟩

/-- A transfer, if there is one, with what has arrived. -/
structure TransferEngine where
  config : TransferConfig
  progress : Option TransferProgress
  receivedChunks : List (List UInt8)
  expectedHash : Option String
  startedAt : Option Instant
  deriving DecidableEq, Repr

namespace TransferEngine

/-- No transfer is under way. -/
def withConfig (config : TransferConfig) : TransferEngine := ⟨config, none, [], none, none⟩

/-- A transfer of so many bytes that is under way since `now`. -/
def begun (totalBytes : UInt64) (now : Instant) : TransferProgress :=
  { TransferProgress.new totalBytes with state := .inProgress, startedAt := some now }

/-- The engine at the start of a transfer that it sends. -/
def sending (e : TransferEngine) (totalSize : UInt64) (now now' : Instant) : TransferEngine :=
  { e with startedAt := some now, progress := some (begun totalSize now') }

/-- Cut the data into chunks. Cutting into chunks of size zero panics. -/
def prepareSend (e : TransferEngine) (data : List UInt8) (now now' : Instant) :
    Option (Except CoreError (List (List UInt8)) × TransferEngine) :=
  if e.config.maxSize.toNat < data.length then
    some (.error (.dataSizeExceeded (UInt64.ofNat data.length) e.config.maxSize), e)
  else if e.config.chunkSize = 0 then none
  else
    some (.ok (data.toChunks e.config.chunkSize.toNat),
      e.sending (UInt64.ofNat data.length) now now')

/-- The engine at the start of a transfer that it receives. -/
def receiving (e : TransferEngine) (totalSize : UInt64) (expectedHash : Option String)
    (now now' : Instant) : TransferEngine :=
  { e with
    receivedChunks := []
    expectedHash := expectedHash
    startedAt := some now
    progress := some (begun totalSize now') }

/-- A transfer that is too large does not begin, and leaves an earlier one as it is. -/
def startReceive (e : TransferEngine) (totalSize : UInt64) (expectedHash : Option String)
    (now now' : Instant) : Except CoreError Unit × TransferEngine :=
  if e.config.maxSize < totalSize then
    (.error (.dataSizeExceeded totalSize e.config.maxSize), e)
  else (.ok (), e.receiving totalSize expectedHash now now')

/-- The time since the transfer began is longer than the timeout. -/
def TimedOut (e : TransferEngine) (now : Instant) : Prop :=
  ∃ started ∈ e.startedAt, millis e.config.timeoutMs.toNat < now - started

instance decidableTimedOut (e : TransferEngine) (now : Instant) : Decidable (e.TimedOut now) :=
  inferInstanceAs (Decidable (∃ started ∈ e.startedAt, _))

/-- What a chunk of this length does to the progress of an active transfer. -/
def advance (eta : UInt64 → UInt64 → ℕ → UInt64) (p : TransferProgress) (length : ℕ)
    (now : Instant) : TransferProgress :=
  let transferred := p.transferredBytes + UInt64.ofNat length
  { p with
    transferredBytes := transferred
    etaMs :=
      match p.startedAt with
      | none => p.etaMs
      | some started =>
        if 0 < now - started ∧ 0 < transferred then
          some (eta (p.totalBytes - transferred) transferred (now - started))
        else p.etaMs
    state := if p.totalBytes ≤ transferred then .completed else p.state }

/-- A chunk that comes too late ends the transfer. Nothing is asked about its length. -/
def receiveChunk (eta : UInt64 → UInt64 → ℕ → UInt64) (e : TransferEngine) (chunk : List UInt8)
    (now now' : Instant) : Except CoreError Unit × TransferEngine :=
  if e.TimedOut now then
    (.error (.transferTimeout e.config.timeoutMs),
      { e with progress := e.progress.map fun p => { p with state := .failed } })
  else
    match e.progress with
    | none => (.error (.invalidState "no active transfer"), e)
    | some p =>
      if p.state.isActive then
        (.ok (), { e with
          progress := some (advance eta p chunk.length now')
          receivedChunks := e.receivedChunks ++ [chunk] })
      else (.error (.invalidState "transfer not active"), e)

/-- The engine without a transfer. -/
def cleared (e : TransferEngine) : TransferEngine :=
  { e with receivedChunks := [], progress := none, expectedHash := none, startedAt := none }

/-- The chunks are put together, and compared with the hash that was promised. -/
def finalizeReceive (computeHash : List UInt8 → String) (e : TransferEngine) :
    Except CoreError (List UInt8) × TransferEngine :=
  match e.progress with
  | none => (.error (.invalidState "no active transfer"), e)
  | some p =>
    if p.state ≠ .completed then
      (.error (.invalidState ("transfer not completed: " ++ p.state.debug)), e)
    else
      let data := e.receivedChunks.flatten
      if e.config.verifyIntegrity ∧ e.expectedHash.any (· ≠ computeHash data) then
        (.error (.formatConversion "integrity check failed: hash mismatch"), e)
      else (.ok data, e.cleared)

/-- What has arrived is thrown away. -/
def cancel (e : TransferEngine) : TransferEngine :=
  { e with
    progress := e.progress.map fun p => { p with state := .cancelled }
    receivedChunks := [] }

/-- A transfer is in progress. -/
def isActive (e : TransferEngine) : Bool := e.progress.any fun p => p.state.isActive

/-! ### A receiver -/

/-- The bytes of the chunks received so far. -/
def stored (e : TransferEngine) : List UInt8 := e.receivedChunks.flatten

/-- The number of bytes that were announced, if a transfer was. -/
def announced (e : TransferEngine) : ℕ := (e.progress.map fun p => p.totalBytes.toNat).getD 0

end TransferEngine

/-- What a receiver is asked to do, with the readings of the clock. -/
inductive TransferCall where
  | startReceive (totalSize : UInt64) (expectedHash : Option String) (now now' : Instant)
  | receiveChunk (chunk : List UInt8) (now now' : Instant)
  | finalizeReceive
  | cancel
  deriving DecidableEq, Repr

/-- A receiver, with the data that is handed on logged. -/
def transferMachine (eta : UInt64 → UInt64 → ℕ → UInt64) (computeHash : List UInt8 → String) :
    Machine TransferEngine TransferCall (List UInt8) where
  step e
    | .startReceive totalSize expectedHash now now' =>
      ((e.startReceive totalSize expectedHash now now').2, [])
    | .receiveChunk chunk now now' => ((e.receiveChunk eta chunk now now').2, [])
    | .finalizeReceive =>
      match e.finalizeReceive computeHash with
      | (.ok data, e') => (e', [data])
      | (.error _, e') => (e', [])
    | .cancel => (e.cancel, [])

namespace TransferEngine

variable {eta : UInt64 → UInt64 → ℕ → UInt64} {computeHash : List UInt8 → String}
  {e : TransferEngine} {chunk : List UInt8} {now now' : Instant}

/-- The chunk is one of an active transfer, in time. -/
def Accepts (e : TransferEngine) (now : Instant) (p : TransferProgress) : Prop :=
  e.progress = some p ∧ p.state.isActive = true ∧ ¬ e.TimedOut now

/-- The bytes that remain are computed, and there are more bytes than were announced. -/
def Underflows (e : TransferEngine) : TransferCall → Prop
  | .receiveChunk chunk now now' =>
    ∃ p started, e.Accepts now p ∧ p.startedAt = some started ∧ 0 < now' - started ∧
      0 < p.transferredBytes + UInt64.ofNat chunk.length ∧
      p.totalBytes < p.transferredBytes + UInt64.ofNat chunk.length
  | _ => False

/-- An accepted chunk is no longer than what is missing. -/
def Fits (e : TransferEngine) : TransferCall → Prop
  | .receiveChunk chunk now _ =>
    ∀ p, e.Accepts now p → p.transferredBytes.toNat + chunk.length ≤ p.totalBytes.toNat
  | _ => True

/-- The call does not over-run: no subtraction underflows, no more is stored than was announced, and
the data that is handed on has the announced length. -/
def Sound (eta : UInt64 → UInt64 → ℕ → UInt64) (computeHash : List UInt8 → String)
    (e : TransferEngine) (call : TransferCall) : Prop :=
  ¬ e.Underflows call ∧
    (((transferMachine eta computeHash).step e call).1.stored.length ≤
      ((transferMachine eta computeHash).step e call).1.announced) ∧
    ∀ data ∈ ((transferMachine eta computeHash).step e call).2, data.length = e.announced

/-- The state of a receiver whose chunks fitted so far. -/
structure Counted (e : TransferEngine) : Prop where
  idle : e.progress = none → e.receivedChunks = []
  within : ∀ p ∈ e.progress, p.transferredBytes ≤ p.totalBytes
  stored : ∀ p ∈ e.progress, e.stored.length ≤ p.transferredBytes.toNat
  kept : ∀ p ∈ e.progress, p.state.isActive = true ∨ p.state = .completed →
    e.stored.length = p.transferredBytes.toNat
  complete : ∀ p ∈ e.progress, p.state = .completed → p.transferredBytes = p.totalBytes

theorem counted_of_idle (hidle : e.progress = none) (hchunks : e.receivedChunks = []) :
    e.Counted := by
  have hnone : ∀ p, p ∉ e.progress := fun p hp => Option.not_mem_none p (hidle ▸ hp)
  exact ⟨fun _ => hchunks, fun p hp => absurd hp (hnone p), fun p hp => absurd hp (hnone p),
    fun p hp => absurd hp (hnone p), fun p hp => absurd hp (hnone p)⟩

/-! ### What a call does -/

theorem receiveChunk_of_accepts {p : TransferProgress} (h : e.Accepts now p) :
    e.receiveChunk eta chunk now now' =
      (.ok (), { e with
        progress := some (advance eta p chunk.length now')
        receivedChunks := e.receivedChunks ++ [chunk] }) := by
  obtain ⟨hp, hactive, htime⟩ := h
  rw [receiveChunk, if_neg htime, hp]
  exact if_pos hactive

/-- A chunk is accepted, or the transfer has timed out, or nothing changes. -/
theorem receiveChunk_cases (eta : UInt64 → UInt64 → ℕ → UInt64) (e : TransferEngine)
    (chunk : List UInt8) (now now' : Instant) :
    (∃ p, e.Accepts now p) ∨ (∀ p, ¬ e.Accepts now p) ∧
      ((e.receiveChunk eta chunk now now').2 = e ∨ (e.receiveChunk eta chunk now now').2 =
        { e with progress := e.progress.map fun p => { p with state := .failed } }) := by
  by_cases htime : e.TimedOut now
  · refine Or.inr ⟨fun p h => h.2.2 htime, Or.inr ?_⟩
    rw [receiveChunk, if_pos htime]
  · cases hp : e.progress with
    | none =>
      refine Or.inr ⟨fun p h => ?_, Or.inl ?_⟩
      · exact Option.some_ne_none p (h.1.symm.trans hp)
      · rw [receiveChunk, if_neg htime, hp]
    | some p =>
      by_cases hactive : p.state.isActive = true
      · exact Or.inl ⟨p, hp, hactive, htime⟩
      · refine Or.inr ⟨fun q h => ?_, Or.inl ?_⟩
        · obtain rfl : p = q := Option.some.inj (hp.symm.trans h.1)
          exact hactive h.2.1
        · rw [receiveChunk, if_neg htime, hp]
          exact congrArg Prod.snd (if_neg hactive)

/-- The data handed on is all that was received, of a transfer that is complete. -/
theorem finalizeReceive_ok {data : List UInt8} {e' : TransferEngine}
    (h : e.finalizeReceive computeHash = (.ok data, e')) :
    ∃ p, e.progress = some p ∧ p.state = .completed ∧ data = e.stored ∧ e' = e.cleared := by
  rw [finalizeReceive] at h
  cases hp : e.progress with
  | none =>
    rw [hp] at h
    cases h
  | some p =>
    rw [hp] at h
    simp only at h
    split_ifs at h with hstate hhash
    · cases h
    · cases h
    · obtain ⟨hdata, he⟩ := Prod.mk.inj h
      exact ⟨p, rfl, not_not.mp hstate, (Except.ok.inj hdata).symm, he.symm⟩

theorem finalizeReceive_of_completed {p : TransferProgress} (hp : e.progress = some p)
    (hstate : p.state = .completed)
    (hhash : ∀ expected ∈ e.expectedHash, expected = computeHash e.stored) :
    e.finalizeReceive computeHash = (.ok e.stored, e.cleared) := by
  have hmatches : ¬ e.expectedHash.any (· ≠ computeHash e.stored) = true := by
    rw [Option.any_eq_true_iff_get]
    rintro ⟨hsome, hne⟩
    exact of_decide_eq_true hne (hhash _ (Option.get_mem hsome))
  rw [finalizeReceive, hp]
  simp only
  rw [if_neg (not_not.mpr hstate)]
  exact if_neg fun h => hmatches h.2

theorem finalizeReceive_error {error : CoreError} {e' : TransferEngine}
    (h : e.finalizeReceive computeHash = (.error error, e')) : e' = e := by
  rw [finalizeReceive] at h
  cases hp : e.progress with
  | none =>
    rw [hp] at h
    exact (congrArg Prod.snd h).symm
  | some p =>
    rw [hp] at h
    simp only at h
    split_ifs at h with hstate hhash
    · exact (congrArg Prod.snd h).symm
    · exact (congrArg Prod.snd h).symm
    · cases h

/-- A chunk that fits is counted exactly. -/
theorem toNat_transferredBytes_add {p : TransferProgress} {length : ℕ}
    (h : p.transferredBytes.toNat + length ≤ p.totalBytes.toNat) :
    (p.transferredBytes + UInt64.ofNat length).toNat = p.transferredBytes.toNat + length := by
  have hbound := p.totalBytes.toNat_lt
  rw [UInt64.toNat_add, UInt64.toNat_ofNat', Nat.add_mod_mod, Nat.mod_eq_of_lt (by omega)]

/-! ### Chunks that fit -/

/-- A received chunk that fits keeps the count. -/
theorem Counted.advance (h : e.Counted) {p : TransferProgress} (haccepts : e.Accepts now p)
    (hfits : p.transferredBytes.toNat + chunk.length ≤ p.totalBytes.toNat) :
    Counted { e with
      progress := some (advance eta p chunk.length now')
      receivedChunks := e.receivedChunks ++ [chunk] } := by
  obtain ⟨hp, hactive, -⟩ := haccepts
  have hcount := toNat_transferredBytes_add hfits
  have hstored : e.stored.length = p.transferredBytes.toNat := h.kept p hp (Or.inl hactive)
  have hnew : (e.receivedChunks ++ [chunk]).flatten.length =
      (p.transferredBytes + UInt64.ofNat chunk.length).toNat := by
    rw [List.flatten_append, List.length_append, List.flatten_singleton, hcount]
    exact congrArg (· + chunk.length) hstored
  refine ⟨fun hnone => absurd hnone (Option.some_ne_none _), ?_, ?_, ?_, ?_⟩
  · intro q hq
    obtain rfl := Option.some.inj hq
    exact UInt64.le_iff_toNat_le.mpr (hcount.le.trans hfits)
  · intro q hq
    obtain rfl := Option.some.inj hq
    exact hnew.le
  · intro q hq _
    obtain rfl := Option.some.inj hq
    exact hnew
  · intro q hq hstate
    obtain rfl := Option.some.inj hq
    by_cases htotal : p.totalBytes ≤ p.transferredBytes + UInt64.ofNat chunk.length
    · exact UInt64.le_antisymm (UInt64.le_iff_toNat_le.mpr (hcount.le.trans hfits)) htotal
    · rw [TransferEngine.advance] at hstate
      simp only [if_neg htotal] at hstate
      rw [hstate] at hactive
      cases hactive

/-- A transfer that is over has no more stored than before. -/
theorem Counted.over (h : e.Counted) {state : TransferState} (hactive : state.isActive = false)
    (hstate : state ≠ .completed) {chunks : List (List UInt8)}
    (hnone : e.receivedChunks = [] → chunks = [])
    (hchunks : chunks.flatten.length ≤ e.stored.length) :
    Counted { e with
      progress := e.progress.map fun p => { p with state := state }
      receivedChunks := chunks } := by
  have hprogress : ∀ q ∈ e.progress.map fun p => { p with state := state },
      ∃ p ∈ e.progress, q = { p with state := state } := by
    intro q hq
    obtain ⟨p, hp, rfl⟩ := Option.mem_map.mp hq
    exact ⟨p, hp, rfl⟩
  refine ⟨fun hidle => hnone (h.idle (Option.map_eq_none_iff.mp hidle)), ?_, ?_, ?_, ?_⟩
  · intro q hq
    obtain ⟨p, hp, rfl⟩ := hprogress q hq
    exact h.within p hp
  · intro q hq
    obtain ⟨p, hp, rfl⟩ := hprogress q hq
    exact hchunks.trans (h.stored p hp)
  · intro q hq hkept
    obtain ⟨p, hp, rfl⟩ := hprogress q hq
    obtain hkept | hkept := hkept
    · exact absurd (hactive.symm.trans hkept) Bool.false_ne_true
    · exact absurd hkept hstate
  · intro q hq hcompleted
    obtain ⟨p, hp, rfl⟩ := hprogress q hq
    exact absurd hcompleted hstate

theorem counted_receiving (e : TransferEngine) (totalSize : UInt64)
    (expectedHash : Option String) (now now' : Instant) :
    (e.receiving totalSize expectedHash now now').Counted := by
  refine ⟨fun hidle => absurd hidle (Option.some_ne_none _), ?_, ?_, ?_, ?_⟩
  · rintro p ⟨⟩
    exact UInt64.zero_le
  · rintro p ⟨⟩
    exact Nat.zero_le _
  · rintro p ⟨⟩ _
    rfl
  · rintro p ⟨⟩ hstate
    cases hstate

theorem Counted.startReceive (h : e.Counted) (totalSize : UInt64) (expectedHash : Option String) :
    (e.startReceive totalSize expectedHash now now').2.Counted := by
  rw [TransferEngine.startReceive]
  split_ifs
  · exact h
  · exact counted_receiving e totalSize expectedHash now now'

/-- **One call.** A call whose chunk fits keeps the count. -/
theorem Counted.step (h : e.Counted) {call : TransferCall} (hfits : e.Fits call) :
    ((transferMachine eta computeHash).step e call).1.Counted := by
  cases call with
  | startReceive totalSize expectedHash now now' => exact h.startReceive totalSize expectedHash
  | receiveChunk chunk now now' =>
    obtain ⟨p, haccepts⟩ | ⟨-, hsame | hfailed⟩ := receiveChunk_cases eta e chunk now now'
    · simp only [transferMachine, receiveChunk_of_accepts haccepts]
      exact h.advance haccepts (hfits p haccepts)
    · simpa only [transferMachine, hsame] using h
    · simp only [transferMachine, hfailed]
      exact h.over rfl (by decide) id le_rfl
  | finalizeReceive =>
    cases hresult : e.finalizeReceive computeHash with
    | mk result e' =>
      cases result with
      | error error =>
        simp only [transferMachine, hresult]
        rw [finalizeReceive_error hresult]
        exact h
      | ok data =>
        obtain ⟨p, -, -, -, rfl⟩ := finalizeReceive_ok hresult
        simp only [transferMachine, hresult]
        exact counted_of_idle rfl rfl
  | cancel => exact h.over rfl (by decide) (fun _ => rfl) (Nat.zero_le _)

/-- What is stored never exceeds what was announced. -/
theorem Counted.stored_le_announced (h : e.Counted) : e.stored.length ≤ e.announced := by
  rw [announced]
  cases hp : e.progress with
  | none =>
    rw [TransferEngine.stored, h.idle hp]
    exact Nat.zero_le _
  | some p => exact (h.stored p hp).trans (UInt64.le_iff_toNat_le.mp (h.within p hp))

/-- What is handed on has the announced length. -/
theorem Counted.length_of_mem_step (h : e.Counted) {call : TransferCall} {data : List UInt8}
    (hdata : data ∈ ((transferMachine eta computeHash).step e call).2) :
    data.length = e.announced := by
  cases call with
  | finalizeReceive =>
    cases hresult : e.finalizeReceive computeHash with
    | mk result e' =>
      cases result with
      | error error => simp [transferMachine, hresult] at hdata
      | ok data' =>
        obtain rfl : data = data' := by simpa [transferMachine, hresult] using hdata
        obtain ⟨p, hp, hstate, rfl, -⟩ := finalizeReceive_ok hresult
        rw [h.kept p hp (Or.inr hstate), h.complete p hp hstate, announced, hp]
        rfl
  | _ => exact absurd hdata List.not_mem_nil

/-- A call is sound exactly if its chunk fits. -/
theorem Counted.sound_iff (h : e.Counted) (call : TransferCall) :
    e.Sound eta computeHash call ↔ e.Fits call := by
  constructor
  · rintro ⟨-, hle, -⟩
    cases call with
    | receiveChunk chunk now now' =>
      intro p haccepts
      simp only [transferMachine, receiveChunk_of_accepts haccepts] at hle
      rw [TransferEngine.stored, List.flatten_append, List.length_append, List.flatten_singleton]
        at hle
      rw [← h.kept p haccepts.1 (Or.inl haccepts.2.1)]
      exact hle
    | _ => trivial
  · intro hfits
    refine ⟨?_, (h.step hfits).stored_le_announced, fun data hdata => h.length_of_mem_step hdata⟩
    cases call with
    | receiveChunk chunk now now' =>
      rintro ⟨p, started, haccepts, -, -, -, hlt⟩
      have hcount := toNat_transferredBytes_add (hfits p haccepts)
      have hle := hfits p haccepts
      rw [UInt64.lt_iff_toNat_lt, hcount] at hlt
      omega
    | _ => exact id

/-- **Receiving.** The calls of a run are sound exactly if every chunk that is accepted is no longer
than what is missing. -/
theorem along_sound_iff (eta : UInt64 → UInt64 → ℕ → UInt64) (computeHash : List UInt8 → String)
    (config : TransferConfig) (calls : List TransferCall) :
    (transferMachine eta computeHash).Along (Sound eta computeHash) (withConfig config) calls ↔
      (transferMachine eta computeHash).Along Fits (withConfig config) calls :=
  Machine.along_congr_of_invariant (I := Counted) (B := fun _ _ => True)
    (fun _ call h _ => h.sound_iff call) (fun _ _ h _ hfits => h.step hfits)
    (counted_of_idle rfl rfl) Machine.along_true

/-- Two bytes come where one was announced, and both are handed on. -/
theorem not_along_sound_overlong :
    ¬ (transferMachine (fun _ _ _ => 0) fun _ => "").Along (Sound (fun _ _ _ => 0) fun _ => "")
        (withConfig .default)
        [.startReceive 1 none 0 0, .receiveChunk [7, 7] 1 1, .finalizeReceive] ∧
      (transferMachine (fun _ _ _ => 0) fun _ => "").trace (withConfig .default)
        [.startReceive 1 none 0 0, .receiveChunk [7, 7] 1 1, .finalizeReceive] = [[7, 7]] := by
  refine ⟨fun h => ?_, by decide +kernel⟩
  have hle := h.2.1.2.1
  revert hle
  decide +kernel

/-! ### What is sent arrives -/

theorem flatten_toChunks_go {α : Type*} (n : ℕ) (xs : List α) (acc₁ : Array α)
    (acc₂ : Array (List α)) :
    (List.toChunks.go n xs acc₁ acc₂).flatten = acc₂.toList.flatten ++ acc₁.toList ++ xs := by
  induction xs generalizing acc₁ acc₂ with
  | nil => simp [List.toChunks.go]
  | cons x xs ih =>
    rw [List.toChunks.go]
    split
    · simp [ih]
    · simp [ih]

theorem toChunks_nil {α : Type*} (n : ℕ) : ([] : List α).toChunks n = [] := by
  cases n <;> rfl

theorem flatten_toChunks {α : Type*} (n : ℕ) (xs : List α) : (xs.toChunks n).flatten = xs := by
  cases xs with
  | nil => rw [toChunks_nil, List.flatten_nil]
  | cons x xs =>
    cases n with
    | zero => simp [List.toChunks]
    | succ n => simp [List.toChunks, flatten_toChunks_go]

theorem ne_nil_of_mem_toChunks_go {α : Type*} (n : ℕ) (xs : List α) (acc₁ : Array α)
    (acc₂ : Array (List α)) (h₁ : acc₁.toList ≠ []) (h₂ : [] ∉ acc₂.toList) :
    [] ∉ List.toChunks.go n xs acc₁ acc₂ := by
  induction xs generalizing acc₁ acc₂ with
  | nil => simpa [List.toChunks.go] using ⟨by simpa using h₂, by simpa [eq_comm] using h₁⟩
  | cons x xs ih =>
    rw [List.toChunks.go]
    split
    · exact ih _ _ (by simp) (by simpa [eq_comm] using ⟨by simpa using h₂, by simpa using h₁⟩)
    · exact ih _ _ (by simp) h₂

theorem nil_notMem_toChunks {α : Type*} (n : ℕ) (xs : List α) : [] ∉ xs.toChunks n := by
  cases xs with
  | nil =>
    rw [toChunks_nil]
    exact List.not_mem_nil
  | cons x xs =>
    cases n with
    | zero => simp [List.toChunks]
    | succ n => exact ne_nil_of_mem_toChunks_go _ _ _ _ (by simp) (by simp)

/-- A chunk as it arrives. -/
structure Reception where
  chunk : List UInt8
  now : Instant
  now' : Instant
  deriving DecidableEq, Repr

/-- The call that a reception is. -/
def Reception.call (r : Reception) : TransferCall := .receiveChunk r.chunk r.now r.now'

theorem isActive_advance {p : TransferProgress} (hactive : p.state.isActive = true) {length : ℕ}
    (h : p.transferredBytes.toNat + length < p.totalBytes.toNat) :
    (advance eta p length now').state.isActive = true := by
  have hcount := toNat_transferredBytes_add h.le
  rw [advance]
  simp only
  rw [if_neg]
  · exact hactive
  · rw [UInt64.le_iff_toNat_le, hcount]
    omega

theorem state_advance_of_eq {p : TransferProgress} {length : ℕ}
    (h : p.transferredBytes.toNat + length = p.totalBytes.toNat) :
    (advance eta p length now').state = .completed := by
  have hcount := toNat_transferredBytes_add h.le
  rw [advance]
  simp only
  rw [if_pos]
  rw [UInt64.le_iff_toNat_le, hcount, h]

/-- **Chunks in order.** Non-empty chunks that are the rest of an active transfer are all stored,
and the last one completes it. -/
theorem exec_receive (eta : UInt64 → UInt64 → ℕ → UInt64) (computeHash : List UInt8 → String)
    (receptions : List Reception) (h : e.Counted) {p : TransferProgress}
    (hp : e.progress = some p) (hactive : p.state.isActive = true)
    (htime : ∀ r ∈ receptions, ¬ e.TimedOut r.now) (hne : ∀ r ∈ receptions, r.chunk ≠ [])
    (hrest : e.stored.length + (receptions.map Reception.chunk).flatten.length =
      p.totalBytes.toNat) :
    let e' := (transferMachine eta computeHash).exec e (receptions.map Reception.call)
    e'.stored = e.stored ++ (receptions.map Reception.chunk).flatten ∧ e'.config = e.config ∧
      e'.expectedHash = e.expectedHash ∧ ∃ p', e'.progress = some p' ∧
      (if receptions = [] then p' = p else p'.state = .completed) := by
  induction receptions generalizing e p with
  | nil => exact ⟨(List.append_nil _).symm, rfl, rfl, p, hp, rfl⟩
  | cons r rs ih =>
    have haccepts : e.Accepts r.now p := ⟨hp, hactive, htime r List.mem_cons_self⟩
    have hcount := h.kept p hp (Or.inl hactive)
    rw [List.map_cons, List.flatten_cons, List.length_append] at hrest
    have hfits : p.transferredBytes.toNat + r.chunk.length ≤ p.totalBytes.toNat := by omega
    have hstep : ((transferMachine eta computeHash).step e r.call).1 = { e with
        progress := some (advance eta p r.chunk.length r.now')
        receivedChunks := e.receivedChunks ++ [r.chunk] } := by
      simp only [transferMachine, Reception.call, receiveChunk_of_accepts haccepts]
    have hstored : TransferEngine.stored { e with
        progress := some (advance eta p r.chunk.length r.now')
        receivedChunks := e.receivedChunks ++ [r.chunk] } = e.stored ++ r.chunk := by
      rw [TransferEngine.stored, List.flatten_append, List.flatten_singleton, TransferEngine.stored]
    rw [List.map_cons, Machine.exec_cons, hstep, List.map_cons, List.flatten_cons]
    cases rs with
    | nil =>
      refine ⟨?_, rfl, rfl, _, rfl, ?_⟩
      · rw [List.map_nil, List.map_nil, Machine.exec_nil, hstored, List.flatten_nil,
          List.append_nil]
      · rw [if_neg (List.cons_ne_nil _ _)]
        exact state_advance_of_eq (by simpa [hcount] using hrest)
    | cons r' rs =>
      have hlater : r'.chunk.length ≠ 0 := fun h0 =>
        hne r' (by simp) (List.length_eq_zero_iff.mp h0)
      have hless : p.transferredBytes.toNat + r.chunk.length < p.totalBytes.toNat := by
        rw [List.map_cons, List.flatten_cons, List.length_append] at hrest
        omega
      have hadvanced : Counted { e with
          progress := some (advance eta p r.chunk.length r.now')
          receivedChunks := e.receivedChunks ++ [r.chunk] } := h.advance haccepts hfits
      obtain ⟨hdata, hconfig, hhash, p', hp', hstate⟩ := ih hadvanced rfl
        (isActive_advance hactive hless) (fun s hs => htime s (List.mem_cons_of_mem _ hs))
        (fun s hs => hne s (List.mem_cons_of_mem _ hs))
        (by rw [hstored, List.length_append, Nat.add_assoc]; exact hrest)
      refine ⟨?_, hconfig, hhash, p', hp', ?_⟩
      · rw [hdata, hstored, List.append_assoc]
      · rw [if_neg (List.cons_ne_nil _ _)] at hstate ⊢
        exact hstate

/-- The start of a transfer that is not too long for the receiver. -/
theorem step_startReceive (eta : UInt64 → UInt64 → ℕ → UInt64)
    (computeHash : List UInt8 → String) {receiver : TransferEngine} {data : List UInt8}
    (hsize : data.length ≤ receiver.config.maxSize.toNat) (startedAt startedAt' : Instant) :
    ((transferMachine eta computeHash).step receiver (.startReceive (UInt64.ofNat data.length)
      (some (computeHash data)) startedAt startedAt')).1 =
      receiver.receiving (UInt64.ofNat data.length) (some (computeHash data)) startedAt
        startedAt' := by
  have hlt : ¬ receiver.config.maxSize < UInt64.ofNat data.length := by
    rw [UInt64.lt_iff_toNat_lt, UInt64.toNat_ofNat',
      Nat.mod_eq_of_lt (hsize.trans_lt receiver.config.maxSize.toNat_lt)]
    exact not_lt.mpr hsize
  simp only [transferMachine, TransferEngine.startReceive, if_neg hlt]

/-- Chunks of data that was announced, in order and in time, are stored, and any of them ends the
transfer. -/
theorem exec_announced (eta : UInt64 → UInt64 → ℕ → UInt64) (computeHash : List UInt8 → String)
    {receiver : TransferEngine} {data : List UInt8}
    (hsize : data.length ≤ receiver.config.maxSize.toNat) {startedAt : Instant}
    (startedAt' : Instant) {receptions : List Reception}
    (hdata : (receptions.map Reception.chunk).flatten = data)
    (hne : ∀ r ∈ receptions, r.chunk ≠ [])
    (htime : ∀ r ∈ receptions, r.now - startedAt ≤ millis receiver.config.timeoutMs.toNat) :
    let e := (transferMachine eta computeHash).exec receiver
      (.startReceive (UInt64.ofNat data.length) (some (computeHash data)) startedAt startedAt' ::
        receptions.map Reception.call)
    e.stored = data ∧ e.expectedHash = some (computeHash data) ∧ ∃ p, e.progress = some p ∧
      (if receptions = [] then p = begun (UInt64.ofNat data.length) startedAt'
        else p.state = .completed) := by
  have hstart := step_startReceive eta computeHash hsize startedAt startedAt'
  have hintime : ∀ r ∈ receptions, ¬ (receiver.receiving (UInt64.ofNat data.length)
      (some (computeHash data)) startedAt startedAt').TimedOut r.now := by
    rintro r hr ⟨started, hstarted, hlt⟩
    obtain rfl := Option.some.inj hstarted
    exact absurd hlt (not_lt.mpr (htime r hr))
  have hrest : (receiver.receiving (UInt64.ofNat data.length) (some (computeHash data)) startedAt
      startedAt').stored.length + (receptions.map Reception.chunk).flatten.length =
      (begun (UInt64.ofNat data.length) startedAt').totalBytes.toNat := by
    have htotal : (UInt64.ofNat data.length).toNat = data.length := by
      rw [UInt64.toNat_ofNat', Nat.mod_eq_of_lt (hsize.trans_lt receiver.config.maxSize.toNat_lt)]
    rw [hdata]
    exact (Nat.zero_add _).trans htotal.symm
  obtain ⟨hstored, -, hhash, hprogress⟩ := exec_receive eta computeHash receptions
    (counted_receiving ..) rfl rfl hintime hne hrest
  rw [Machine.exec_cons, hstart]
  refine ⟨?_, hhash, hprogress⟩
  rw [hstored, hdata]
  exact List.nil_append data

/-- **The round trip.** The chunks of data that may be sent, received in order and in time by a
receiver that was told its length and its hash, give the data back and end the transfer, exactly if
the data is not empty. -/
theorem receive_prepareSend_iff (eta : UInt64 → UInt64 → ℕ → UInt64)
    (computeHash : List UInt8 → String) (config : TransferConfig) (hchunk : 1 ≤ config.chunkSize)
    (sender receiver : TransferEngine) (hsender : sender.config = config)
    (hreceiver : receiver.config = config) (data : List UInt8)
    (hsize : data.length ≤ config.maxSize.toNat) (sentAt sentAt' startedAt startedAt' : Instant) :
    ∃ chunks sender', sender.prepareSend data sentAt sentAt' = some (.ok chunks, sender') ∧
      ∀ receptions : List Reception, receptions.map Reception.chunk = chunks →
        (∀ r ∈ receptions, r.now - startedAt ≤ millis config.timeoutMs.toNat) →
        let e := (transferMachine eta computeHash).exec receiver
          (.startReceive (UInt64.ofNat data.length) (some (computeHash data)) startedAt
            startedAt' :: receptions.map Reception.call)
        ((e.finalizeReceive computeHash).1 = .ok data ∧
          (e.finalizeReceive computeHash).2.isActive = false) ↔ data ≠ [] := by
  have hsend : sender.prepareSend data sentAt sentAt' =
      some (.ok (data.toChunks config.chunkSize.toNat),
        sender.sending (UInt64.ofNat data.length) sentAt sentAt') := by
    rw [prepareSend, hsender, if_neg (not_lt.mpr hsize), if_neg (UInt64.pos_iff_ne_zero.mp hchunk)]
  refine ⟨_, _, hsend, fun receptions hreceptions htime => ?_⟩
  intro e
  subst hreceiver
  have hflat : (receptions.map Reception.chunk).flatten = data := by
    rw [hreceptions, flatten_toChunks]
  have hne : ∀ r ∈ receptions, r.chunk ≠ [] := by
    intro r hr hnil
    refine nil_notMem_toChunks receiver.config.chunkSize.toNat data ?_
    rw [← hreceptions, ← hnil]
    exact List.mem_map_of_mem hr
  obtain ⟨hstored, hhash, p, hp, hstate⟩ :=
    exec_announced eta computeHash hsize startedAt' hflat hne htime
  constructor
  · rintro ⟨hok, -⟩ rfl
    have hnil : receptions = [] := by
      rw [← List.map_eq_nil_iff, hreceptions]
      exact toChunks_nil _
    rw [if_pos hnil] at hstate
    obtain ⟨q, hq, hcompleted, -, -⟩ := finalizeReceive_ok (Prod.ext hok rfl)
    rw [Option.some.inj (hq.symm.trans hp), hstate] at hcompleted
    cases hcompleted
  · intro hdata
    have hreceived : receptions ≠ [] := by
      rintro rfl
      exact hdata hflat.symm
    rw [if_neg hreceived] at hstate
    have hfinal : e.finalizeReceive computeHash = (.ok e.stored, _) :=
      finalizeReceive_of_completed hp hstate fun expected hmem => by
        rw [hstored]
        exact Option.some.inj (hmem.symm.trans hhash)
    rw [hfinal, hstored]
    exact ⟨rfl, rfl⟩

/-- Three bytes in two chunks. -/
theorem receive_prepareSend_two_chunks :
    let e := (transferMachine (fun _ _ _ => 0) fun data => toString data.length).exec
      (withConfig ⟨2, 16, 30, true⟩)
      [.startReceive 3 (some "3") 0 0, .receiveChunk [1, 2] 5 5, .receiveChunk [3] 9 9]
    (e.finalizeReceive fun data => toString data.length).1 = .ok [1, 2, 3] := by
  obtain ⟨chunks, sender', hsend, hreceive⟩ := receive_prepareSend_iff (fun _ _ _ => 0)
    (fun data => toString data.length) ⟨2, 16, 30, true⟩ (by decide) (withConfig ⟨2, 16, 30, true⟩)
    (withConfig ⟨2, 16, 30, true⟩) rfl rfl [1, 2, 3] (by decide) 0 0 0 0
  have hchunks : [[1, 2], [3]] = chunks := by
    have hprepared : (withConfig ⟨2, 16, 30, true⟩).prepareSend [1, 2, 3] 0 0 =
      some (.ok [[1, 2], [3]], _) := rfl
    rw [hprepared] at hsend
    exact Except.ok.inj (congrArg Prod.fst (Option.some.inj hsend))
  exact ((hreceive [⟨[1, 2], 5, 5⟩, ⟨[3], 9, 9⟩] hchunks (by decide)).mpr (by decide)).1

/-- Empty data is no chunk at all, and a receiver of none never completes. -/
theorem not_receive_prepareSend_empty :
    ¬ ((((transferMachine (fun _ _ _ => 0) fun _ => "").exec (withConfig .default)
          [.startReceive 0 (some "") 0 0]).finalizeReceive fun _ => "").1 = .ok [] ∧
        (((transferMachine (fun _ _ _ => 0) fun _ => "").exec (withConfig .default)
          [.startReceive 0 (some "") 0 0]).finalizeReceive fun _ => "").2.isActive = false) ∧
      ∃ sender', (withConfig .default).prepareSend [] 0 0 = some (.ok [], sender') := by
  refine ⟨?_, _, rfl⟩
  rintro ⟨hok, -⟩
  revert hok
  decide

end TransferEngine

end Clipboard

end Cheirizo
