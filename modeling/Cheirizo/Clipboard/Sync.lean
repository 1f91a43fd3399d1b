import Cheirizo.Clock
import Cheirizo.Lib.Unicode
import Cheirizo.Clipboard.Formats

/-!
# Ownership and loop suppression

The loop detector of `clipboard/core/loop_detector.rs` and the ownership policy of
`clipboard/sync.rs`. Offers and contents are remembered by fingerprint, together with the side they
came from and the time; an offer is a loop if the *other* side made the same one a moment ago.

The fingerprint function is a parameter: the model feeds it exactly the bytes the code feeds to
SHA-256.

## Main definitions

* `LoopDetector` — the two histories, with `checkHashCollision` and `cleanupHistory`
* `SyncManager` — the owner, with `handleRdpFormats`, `handlePortalFormats` and `checkContent`

## Main results

* `SyncManager.checkContent_of_clientContent` — content that only ever came from the client is
  never a loop
* `LoopDetector.checkHashCollision_append` — an expired record and everything before it is not seen
* `LoopDetector.cleanup_append` — cleaning up never reaches a live record through an expired one
-/

namespace Cheirizo

namespace Clipboard

open Unicode

/-- Where a clipboard operation came from. -/
inductive ClipboardSource where
  | rdp
  | desktop
  deriving DecidableEq, Repr

/-- The other side. -/
def ClipboardSource.opposite : ClipboardSource → ClipboardSource
  | rdp => desktop
  | desktop => rdp

/-- An offer or a content that crossed, by its fingerprint. -/
structure ClipboardOperation where
  hash : String
  source : ClipboardSource
  timestamp : Instant
  deriving DecidableEq, Repr

/-- How long and how much the detector remembers, and whether it looks at contents. -/
structure LoopDetectionConfig where
  windowMs : UInt64
  maxHistory : ℕ
  enableContentHashing : Bool
  deriving DecidableEq, Repr

/-- What crossed lately, and in which direction it last did. -/
structure LoopDetector where
  config : LoopDetectionConfig
  /-- Recent offers, oldest first. -/
  formatHistory : List ClipboardOperation
  /-- Recent contents, oldest first. -/
  contentHistory : List ClipboardOperation
  lastSyncRdp : Option Instant
  lastSyncLocal : Option Instant
  deriving DecidableEq, Repr

/-! ### Fingerprints -/

/-- The bytes of a format that go into the fingerprint. -/
def formatBytes (format : ClipboardFormat) : List UInt8 :=
  natToLe 4 format.id.toNat ++ encodeUtf8 (format.name.getD "").toList

/-- What is hashed for a list of formats. -/
def formatsPreimage (formats : List ClipboardFormat) : List UInt8 := formats.flatMap formatBytes

/-- What is hashed for a list of MIME types. -/
def mimeTypesPreimage (mimeTypes : List String) : List UInt8 :=
  mimeTypes.flatMap fun mime => encodeUtf8 mime.toList ++ [0]

namespace LoopDetector

/-- A detector that has seen nothing. -/
def withConfig (config : LoopDetectionConfig) : LoopDetector where
  config
  formatHistory := []
  contentHistory := []
  lastSyncRdp := none
  lastSyncLocal := none

/-! ### Histories -/

/-- The operation is not older than the window. -/
def recent (window : ℕ) (now : Instant) (op : ClipboardOperation) : Bool :=
  now - op.timestamp ≤ window

/-- A recent operation of the other side has this fingerprint. The search goes back in time and
ends at the first operation outside the window. -/
def checkHashCollision (config : LoopDetectionConfig) (now : Instant)
    (history : List ClipboardOperation) (hash : String) (currentSource : ClipboardSource) : Bool :=
  (history.reverse.takeWhile (recent (millis config.windowMs.toNat) now)).any fun op =>
    op.source = currentSource.opposite && op.hash = hash

/-- The record is older than twice the window. -/
def stale (config : LoopDetectionConfig) (now : Instant) (op : ClipboardOperation) : Bool :=
  !recent (millis (config.windowMs * 2).toNat) now op

/-- Drop what is older than twice the window, then all but the newest `maxHistory`. -/
def cleanup (config : LoopDetectionConfig) (now : Instant) (history : List ClipboardOperation) :
    List ClipboardOperation :=
  let kept := history.dropWhile (stale config now)
  kept.drop (kept.length - config.maxHistory)

/-- Both histories lose what is too old or too much. -/
def cleanupHistory (d : LoopDetector) (now : Instant) : LoopDetector :=
  { d with
    formatHistory := cleanup d.config now d.formatHistory
    contentHistory := cleanup d.config now d.contentHistory }

/-- When a side last passed something on. -/
def recordSync (d : LoopDetector) (now : Instant) : ClipboardSource → LoopDetector
  | .rdp => { d with lastSyncRdp := some now }
  | .desktop => { d with lastSyncLocal := some now }

section Hashing

variable (sha256 : List UInt8 → String)

/-- The fingerprint of a client's offer. -/
def hashFormats (formats : List ClipboardFormat) : String := sha256 (formatsPreimage formats)

/-- The fingerprint of a desktop's offer. -/
def hashMimeTypes (mimeTypes : List String) : String := sha256 (mimeTypesPreimage mimeTypes)

/-- The client's offer joins the history. -/
def recordFormats (d : LoopDetector) (now : Instant) (formats : List ClipboardFormat)
    (source : ClipboardSource) : LoopDetector :=
  cleanupHistory
    { d with formatHistory := d.formatHistory ++ [⟨hashFormats sha256 formats, source, now⟩] } now

/-- The desktop's offer joins the same history. -/
def recordMimeTypes (d : LoopDetector) (now : Instant) (mimeTypes : List String)
    (source : ClipboardSource) : LoopDetector :=
  cleanupHistory
    { d with formatHistory := d.formatHistory ++ [⟨hashMimeTypes sha256 mimeTypes, source, now⟩] }
    now

/-- Contents are recorded only if the configuration asks for it. -/
def recordContent (d : LoopDetector) (now : Instant) (data : List UInt8)
    (source : ClipboardSource) : LoopDetector :=
  if d.config.enableContentHashing then
    cleanupHistory { d with contentHistory := d.contentHistory ++ [⟨sha256 data, source, now⟩] } now
  else d

/-- The comparison is with operations that came from the client. -/
def wouldCauseLoop (d : LoopDetector) (now : Instant) (formats : List ClipboardFormat) : Bool :=
  checkHashCollision d.config now d.formatHistory (hashFormats sha256 formats) .desktop

/-- An offer of the desktop that repeats one of the client. -/
def wouldCauseLoopMime (d : LoopDetector) (now : Instant) (mimeTypes : List String) : Bool :=
  checkHashCollision d.config now d.formatHistory (hashMimeTypes sha256 mimeTypes) .rdp

/-- A content that repeats one of the other side. -/
def wouldCauseContentLoop (d : LoopDetector) (now : Instant) (data : List UInt8)
    (source : ClipboardSource) : Bool :=
  d.config.enableContentHashing &&
    checkHashCollision d.config now d.contentHistory (sha256 data) source

end Hashing

theorem mem_of_mem_cleanup {config : LoopDetectionConfig} {now : Instant}
    {history : List ClipboardOperation} {op : ClipboardOperation}
    (h : op ∈ cleanup config now history) : op ∈ history :=
  ((List.dropWhile_sublist _).mem (List.mem_of_mem_drop h))

/-! ### Expired records

A record outside the window is not seen, and neither is what comes before it. So a history that
starts with expired records behaves like the rest of it. -/

variable {config : LoopDetectionConfig} {now since : Instant}

/-- The records are outside the window from `since` on. -/
def Expired (config : LoopDetectionConfig) (since : Instant) (history : List ClipboardOperation) :
    Prop :=
  ∀ op ∈ history, op.timestamp + millis config.windowMs.toNat < since

theorem Expired.not_recent {old : List ClipboardOperation} (h : Expired config since old)
    (hnow : since ≤ now) {op : ClipboardOperation} (hop : op ∈ old) :
    recent (millis config.windowMs.toNat) now op = false := by
  have hlt : op.timestamp + millis config.windowMs.toNat < now := Nat.lt_of_lt_of_le (h op hop) hnow
  exact decide_eq_false (Nat.not_le.mpr (Nat.lt_sub_iff_add_lt'.mpr hlt))

/-- **Expired records and everything before them are not seen.** -/
theorem checkHashCollision_append {old new : List ClipboardOperation}
    (h : Expired config since old) (hnow : since ≤ now) (hash : String)
    (source : ClipboardSource) :
    checkHashCollision config now (old ++ new) hash source =
      checkHashCollision config now new hash source := by
  have hold : old.reverse.takeWhile (recent (millis config.windowMs.toNat) now) = [] := by
    rcases hrev : old.reverse with _ | ⟨op, rest⟩
    · rfl
    · have hop : op ∈ old := List.mem_reverse.mp (hrev ▸ List.mem_cons_self ..)
      rw [List.takeWhile_cons, h.not_recent hnow hop]
      rfl
  rw [checkHashCollision, checkHashCollision, List.reverse_append, List.takeWhile_append, hold]
  split
  · rename_i hall
    rw [List.append_nil, (List.takeWhile_prefix _).eq_of_length hall]
  · rfl

theorem Expired.checkHashCollision {old : List ClipboardOperation} (h : Expired config since old)
    (hnow : since ≤ now) (hash : String) (source : ClipboardSource) :
    LoopDetector.checkHashCollision config now old hash source = false := by
  rw [← List.append_nil old, checkHashCollision_append h hnow]
  rfl

/-- If an expired record is young enough to be kept, then so is everything after it. -/
theorem dropWhile_stale_append (now : Instant) {old new : List ClipboardOperation}
    (h : Expired config since old) (hnew : ∀ op ∈ new, since ≤ op.timestamp) :
    ∃ old', Expired config since old' ∧
      (old ++ new).dropWhile (stale config now) = old' ++ new.dropWhile (stale config now) := by
  rw [List.dropWhile_append]
  split
  · exact ⟨[], (fun _ h => nomatch h), rfl⟩
  · rename_i hne
    rw [List.isEmpty_iff] at hne
    refine ⟨old.dropWhile (stale config now),
      fun op hop => h op ((List.dropWhile_sublist _).mem hop), ?_⟩
    have hkept := List.head_dropWhile_not (stale config now) hne
    have hmem := (List.dropWhile_sublist (stale config now)).mem (List.head_mem hne)
    rcases hcase : new with _ | ⟨op, rest⟩
    · rfl
    · have hold := h _ hmem
      have hyoung := hnew op (hcase ▸ List.mem_cons_self ..)
      have hop : stale config now op = false := by
        have hle :=
          Nat.le_trans (Nat.le_of_lt (Nat.lt_of_le_of_lt (Nat.le_add_right ..) hold)) hyoung
        simp only [stale, recent, Bool.not_eq_false', decide_eq_true_eq] at hkept ⊢
        exact (Nat.sub_le_sub_left hle now).trans hkept
      rw [List.dropWhile_cons, hop]
      rfl

/-- **Cleaning up never reaches a live record through an expired one.** -/
theorem cleanup_append (now : Instant) {old new : List ClipboardOperation}
    (h : Expired config since old) (hnew : ∀ op ∈ new, since ≤ op.timestamp) :
    ∃ old', Expired config since old' ∧
      cleanup config now (old ++ new) = old' ++ cleanup config now new := by
  obtain ⟨kept, hkept, hdrop⟩ := dropWhile_stale_append now h hnew
  have hcount : ∀ l : List ClipboardOperation,
      (kept ++ l).length - config.maxHistory - kept.length = l.length - config.maxHistory := by
    intro l
    rw [List.length_append]
    omega
  refine ⟨kept.drop ((kept ++ new.dropWhile (stale config now)).length - config.maxHistory),
    fun op hop => hkept op (List.mem_of_mem_drop hop), ?_⟩
  rw [cleanup, cleanup, hdrop, List.drop_append, hcount]

end LoopDetector

/-! ### Ownership -/

/-- For how long a client that has just taken the clipboard keeps it. -/
def echoWindow : ℕ := seconds 2

/-- Which way a transfer goes. -/
inductive SyncDirection where
  | rdpToPortal
  | portalToRdp
  deriving DecidableEq, Repr

/-- Whether an offer of the desktop is passed on. -/
inductive PortalSyncDecision where
  | allow
  | block
  deriving DecidableEq, Repr

/-- Who owns the clipboard. -/
inductive ClipboardState where
  | idle
  | rdpOwned (formats : List ClipboardFormat) (since : Instant)
  | portalOwned (mimeTypes : List String)
  | syncing (direction : SyncDirection)
  deriving DecidableEq, Repr

/-- The owner of the clipboard, with the detector that guards it. -/
structure SyncManager where
  state : ClipboardState
  detector : LoopDetector
  deriving DecidableEq, Repr

namespace SyncManager

/-- Nobody owns the clipboard at first. -/
def withConfig (config : LoopDetectionConfig) : SyncManager where
  state := .idle
  detector := .withConfig config

/-- The client owns the clipboard and the given local announcement has to be taken for an echo. -/
def ownershipBlocks (m : SyncManager) (now : Instant) (authoritative : Bool) : Bool :=
  match m.state with
  | .rdpOwned _ since => !authoritative || now - since < echoWindow
  | _ => false

section Hashing

variable (sha256 : List UInt8 → String)

/-- A client that is no echo takes the clipboard. `true` says that it did. -/
def handleRdpFormats (m : SyncManager) (now : Instant) (formats : List ClipboardFormat) :
    Bool × SyncManager :=
  if m.detector.wouldCauseLoop sha256 now formats then (false, m)
  else
    (true, {
      state := .rdpOwned formats now
      detector := (m.detector.recordFormats sha256 now formats .rdp).recordSync now .rdp })

/-- An authoritative offer of the desktop is no echo, whatever the detector remembers. -/
def handlePortalFormats (m : SyncManager) (now : Instant) (mimeTypes : List String)
    (authoritative : Bool) : PortalSyncDecision × SyncManager :=
  if m.ownershipBlocks now authoritative then (.block, m)
  else if !authoritative && m.detector.wouldCauseLoopMime sha256 now mimeTypes then (.block, m)
  else
    (.allow, {
      state := .portalOwned mimeTypes
      detector := (m.detector.recordMimeTypes sha256 now mimeTypes .desktop).recordSync now
        .desktop })

/-- A content that may cross is recorded as having crossed. -/
def checkContent (m : SyncManager) (now : Instant) (content : List UInt8) (fromRdp : Bool) :
    Bool × SyncManager :=
  let source := if fromRdp then ClipboardSource.rdp else .desktop
  if m.detector.wouldCauseContentLoop sha256 now content source then (false, m)
  else (true, { m with detector := m.detector.recordContent sha256 now content source })

/-- Make the client the owner, unconditionally. -/
def setRdpFormats (m : SyncManager) (now : Instant) (formats : List ClipboardFormat) :
    SyncManager where
  state := .rdpOwned formats now
  detector := m.detector.recordFormats sha256 now formats .rdp

/-- Make the desktop the owner, unconditionally. -/
def setPortalFormats (m : SyncManager) (now : Instant) (mimeTypes : List String) :
    SyncManager where
  state := .portalOwned mimeTypes
  detector := m.detector.recordMimeTypes sha256 now mimeTypes .desktop

end Hashing

/-- A transfer hides who owned the clipboard before it. -/
def setSyncing (m : SyncManager) (direction : SyncDirection) : SyncManager :=
  { m with state := .syncing direction }

/-- Nobody owns the clipboard any more. -/
def reset (m : SyncManager) : SyncManager := { m with state := .idle }

/-- The memory is lost, the configuration kept. -/
def resetLoopDetector (m : SyncManager) : SyncManager :=
  { m with detector := .withConfig m.detector.config }

/-! ### Content comes from the client only -/

variable {sha256 : List UInt8 → String} {m : SyncManager} {now : Instant}

/-- Every content on record came from the client. -/
def ClientContent (m : SyncManager) : Prop :=
  ∀ op ∈ m.detector.contentHistory, op.source = .rdp

theorem clientContent_withConfig (config : LoopDetectionConfig) :
    (withConfig config).ClientContent := by
  simp [ClientContent, withConfig, LoopDetector.withConfig]

/-- What a routine leaves of the record, up to operations of the client, still came from it. -/
theorem ClientContent.of_mem {m' : SyncManager} (h : m.ClientContent)
    (hsub : ∀ op ∈ m'.detector.contentHistory,
      op ∈ m.detector.contentHistory ∨ op.source = .rdp) : m'.ClientContent := by
  intro op hop
  rcases hsub op hop with hold | hnew
  · exact h op hold
  · exact hnew

theorem ClientContent.handleRdpFormats (h : m.ClientContent) (formats : List ClipboardFormat) :
    (m.handleRdpFormats sha256 now formats).2.ClientContent := by
  refine h.of_mem fun op hop => Or.inl ?_
  rw [SyncManager.handleRdpFormats] at hop
  split at hop
  · exact hop
  · exact LoopDetector.mem_of_mem_cleanup hop

theorem ClientContent.handlePortalFormats (h : m.ClientContent) (mimeTypes : List String)
    (authoritative : Bool) :
    (m.handlePortalFormats sha256 now mimeTypes authoritative).2.ClientContent := by
  refine h.of_mem fun op hop => Or.inl ?_
  rw [SyncManager.handlePortalFormats] at hop
  split at hop
  · exact hop
  · split at hop
    · exact hop
    · exact LoopDetector.mem_of_mem_cleanup hop

theorem checkContent_rdp (content : List UInt8) :
    m.checkContent sha256 now content true =
      if m.detector.wouldCauseContentLoop sha256 now content .rdp then (false, m)
      else (true, { m with detector := m.detector.recordContent sha256 now content .rdp }) := rfl

theorem ClientContent.checkContent (h : m.ClientContent) (content : List UInt8) :
    (m.checkContent sha256 now content true).2.ClientContent := by
  refine h.of_mem fun op hop => ?_
  rw [checkContent_rdp] at hop
  split at hop
  · exact Or.inl hop
  · dsimp only [LoopDetector.recordContent] at hop
    split at hop
    · rcases List.mem_append.mp (LoopDetector.mem_of_mem_cleanup hop) with hold | hnew
      · exact Or.inl hold
      · rw [List.mem_singleton] at hnew
        exact Or.inr (by rw [hnew])
    · exact Or.inl hop

/-- **Content that only ever came from the client is never taken for a loop**: the detector looks
for the other side's operations, and there are none. -/
theorem checkContent_of_clientContent (h : m.ClientContent) (content : List UInt8) :
    (m.checkContent sha256 now content true).1 = true := by
  have hno : m.detector.wouldCauseContentLoop sha256 now content .rdp = false := by
    rw [LoopDetector.wouldCauseContentLoop, LoopDetector.checkHashCollision, Bool.and_eq_false_iff,
      List.any_eq_false]
    refine Or.inr fun op hop => ?_
    have hmem := List.mem_reverse.mp ((List.takeWhile_sublist _).mem hop)
    simp [h op hmem, ClipboardSource.opposite]
  simp [SyncManager.checkContent, hno]

/-! ### The configuration is fixed -/

theorem handleRdpFormats_config (formats : List ClipboardFormat) :
    (m.handleRdpFormats sha256 now formats).2.detector.config = m.detector.config := by
  rw [handleRdpFormats]
  split <;> rfl

theorem handlePortalFormats_config (mimeTypes : List String) (authoritative : Bool) :
    (m.handlePortalFormats sha256 now mimeTypes authoritative).2.detector.config =
      m.detector.config := by
  rw [handlePortalFormats]
  split
  · rfl
  · split <;> rfl

theorem checkContent_config (content : List UInt8) :
    (m.checkContent sha256 now content true).2.detector.config = m.detector.config := by
  rw [checkContent_rdp]
  split
  · rfl
  · dsimp only [LoopDetector.recordContent]
    split <;> rfl

end SyncManager

end Clipboard

end Cheirizo
