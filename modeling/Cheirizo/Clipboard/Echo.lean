import Mathlib.Data.List.Induction
import Cheirizo.Lib.Machine
import Cheirizo.Clipboard.Sync

/-!
# Echoes of a local announcement

A list of formats that was advertised to the client comes back as the client's own announcement if
the client mirrors it. The loop detector is there to recognise that. It cannot: a client's list is
compared with earlier operations *of the client*, and a local announcement is on record as one of
the desktop, under the fingerprint of its MIME types. An echo is rejected only because the client
itself announced the same list a moment before.

## Main definitions

* `SyncOp`, `policy` — the uses of the ownership policy, as inputs of a machine with a clock
* `Bounce` — an accepted local announcement, and the return of what was advertised for it

## Main results

* `perform_history` — an operation adds at most its own entry to the record of announcements
* `Chronicle.step` — the record stays in order, and its client entries are lists of formats
* `echo_rejected_iff` — the returning list is rejected exactly if the client's own is on record
-/

namespace Cheirizo

namespace Clipboard

/-- A use of the ownership policy. -/
inductive SyncOp where
  | rdpFormats (formats : List ClipboardFormat)
  | portalFormats (mimeTypes : List String) (authoritative : Bool)
  | content (data : List UInt8) (fromRdp : Bool)
  | setRdpFormats (formats : List ClipboardFormat)
  | setPortalFormats (mimeTypes : List String)
  | setSyncing (direction : SyncDirection)
  | reset
  | resetLoopDetector
  deriving DecidableEq, Repr

namespace LoopDetector

variable {config : LoopDetectionConfig} {now : Instant}

theorem cleanup_sublist (history : List ClipboardOperation) :
    (cleanup config now history).Sublist history :=
  (List.drop_sublist _ _).trans (List.dropWhile_sublist _)

theorem recordContent_sublist (sha256 : List UInt8 → String) (d : LoopDetector) (data : List UInt8)
    (source : ClipboardSource) :
    (d.recordContent sha256 now data source).formatHistory.Sublist d.formatHistory := by
  rw [recordContent]
  split
  · exact cleanup_sublist _
  · exact List.Sublist.refl _

theorem recordContent_config (sha256 : List UInt8 → String) (d : LoopDetector) (data : List UInt8)
    (source : ClipboardSource) : (d.recordContent sha256 now data source).config = d.config := by
  rw [recordContent]
  split <;> rfl

/-- In a record kept in order, the search back in time sees exactly what is in the window. -/
theorem mem_takeWhile_recent {window : ℕ} {history : List ClipboardOperation}
    (hordered : history.Pairwise fun a b => a.timestamp ≤ b.timestamp) {op : ClipboardOperation} :
    op ∈ history.reverse.takeWhile (recent window now) ↔
      op ∈ history ∧ recent window now op = true := by
  induction history using List.reverseRecOn with
  | nil => simp
  | append_singleton older newest ih =>
    obtain ⟨holder, -, hnewest⟩ := List.pairwise_append.mp hordered
    rw [List.reverse_concat, List.takeWhile_cons]
    by_cases hrecent : recent window now newest = true
    · rw [if_pos hrecent, List.mem_cons, ih holder, List.mem_append, List.mem_singleton]
      constructor
      · rintro (rfl | ⟨hmem, hop⟩)
        · exact ⟨.inr rfl, hrecent⟩
        · exact ⟨.inl hmem, hop⟩
      · rintro ⟨hmem | rfl, hop⟩
        · exact .inr ⟨hmem, hop⟩
        · exact .inl rfl
    · rw [if_neg hrecent]
      refine ⟨fun h => absurd h List.not_mem_nil, ?_⟩
      -- nothing older than an entry outside the window is inside it
      rintro ⟨hmem, hop⟩
      refine absurd ?_ hrecent
      rcases List.mem_append.mp hmem with hmem | hmem
      · have hle := hnewest op hmem newest (List.mem_singleton_self _)
        rw [recent, decide_eq_true_eq] at hop ⊢
        exact (Nat.sub_le_sub_left hle now).trans hop
      · rwa [← List.mem_singleton.mp hmem]

end LoopDetector

namespace SyncManager

section Policy

variable (sha256 : List UInt8 → String)

/-- What an operation makes of the policy. -/
def perform (m : SyncManager) (now : Instant) : SyncOp → SyncManager
  | .rdpFormats formats => (m.handleRdpFormats sha256 now formats).2
  | .portalFormats mimeTypes authoritative =>
    (m.handlePortalFormats sha256 now mimeTypes authoritative).2
  | .content data fromRdp => (m.checkContent sha256 now data fromRdp).2
  | .setRdpFormats formats => m.setRdpFormats sha256 now formats
  | .setPortalFormats mimeTypes => m.setPortalFormats sha256 now mimeTypes
  | .setSyncing direction => m.setSyncing direction
  | .reset => m.reset
  | .resetLoopDetector => m.resetLoopDetector

/-- The entry an operation makes in the record of announcements, if it is accepted. -/
def recorded (m : SyncManager) (now : Instant) : SyncOp → List ClipboardOperation
  | .rdpFormats formats =>
    if (m.handleRdpFormats sha256 now formats).1 then
      [⟨LoopDetector.hashFormats sha256 formats, .rdp, now⟩]
    else []
  | .portalFormats mimeTypes authoritative =>
    if (m.handlePortalFormats sha256 now mimeTypes authoritative).1 = .allow then
      [⟨LoopDetector.hashMimeTypes sha256 mimeTypes, .desktop, now⟩]
    else []
  | .setRdpFormats formats => [⟨LoopDetector.hashFormats sha256 formats, .rdp, now⟩]
  | .setPortalFormats mimeTypes => [⟨LoopDetector.hashMimeTypes sha256 mimeTypes, .desktop, now⟩]
  | .content _ _ | .setSyncing _ | .reset | .resetLoopDetector => []

/-- **An operation adds at most its own entry.** Cleaning up only removes. -/
theorem perform_history (m : SyncManager) (now : Instant) (op : SyncOp) :
    (m.perform sha256 now op).detector.formatHistory.Sublist
      (m.detector.formatHistory ++ m.recorded sha256 now op) := by
  cases op with
  | rdpFormats formats =>
    rw [perform, recorded, handleRdpFormats]
    split
    · exact List.sublist_append_left ..
    · exact LoopDetector.cleanup_sublist _
  | portalFormats mimeTypes authoritative =>
    rw [perform, recorded, handlePortalFormats]
    split
    · exact List.sublist_append_left ..
    · split
      · exact List.sublist_append_left ..
      · exact LoopDetector.cleanup_sublist _
  | content data fromRdp =>
    rw [perform, recorded, checkContent, List.append_nil]
    generalize (if fromRdp then ClipboardSource.rdp else .desktop) = source
    split
    · exact List.Sublist.refl _
    · exact LoopDetector.recordContent_sublist sha256 _ data source
  | setRdpFormats formats => exact LoopDetector.cleanup_sublist _
  | setPortalFormats mimeTypes => exact LoopDetector.cleanup_sublist _
  | setSyncing direction => exact List.sublist_append_left ..
  | reset => exact List.sublist_append_left ..
  | resetLoopDetector => exact List.nil_sublist _

theorem perform_config (m : SyncManager) (now : Instant) (op : SyncOp) :
    (m.perform sha256 now op).detector.config = m.detector.config := by
  cases op with
  | rdpFormats formats => exact handleRdpFormats_config formats
  | portalFormats mimeTypes authoritative =>
    exact handlePortalFormats_config mimeTypes authoritative
  | content data fromRdp =>
    rw [perform, checkContent]
    generalize (if fromRdp then ClipboardSource.rdp else .desktop) = source
    split
    · rfl
    · exact LoopDetector.recordContent_config sha256 _ data source
  | setRdpFormats | setPortalFormats | setSyncing | reset | resetLoopDetector => rfl

/-- What an operation records comes from the client only as a list of formats. -/
theorem mem_recorded {m : SyncManager} {now : Instant} {op : SyncOp} {entry : ClipboardOperation}
    (h : entry ∈ m.recorded sha256 now op) :
    entry.timestamp = now ∧ (entry.source = .rdp →
      ∃ formats, entry.hash = LoopDetector.hashFormats sha256 formats) := by
  cases op with
  | rdpFormats formats =>
    rw [recorded] at h
    split at h
    · rw [List.mem_singleton.mp h]
      exact ⟨rfl, fun _ => ⟨formats, rfl⟩⟩
    · exact absurd h List.not_mem_nil
  | portalFormats mimeTypes authoritative =>
    rw [recorded] at h
    split at h
    · rw [List.mem_singleton.mp h]
      exact ⟨rfl, fun hsource => nomatch hsource⟩
    · exact absurd h List.not_mem_nil
  | setRdpFormats formats =>
    rw [List.mem_singleton.mp h]
    exact ⟨rfl, fun _ => ⟨formats, rfl⟩⟩
  | setPortalFormats mimeTypes =>
    rw [List.mem_singleton.mp h]
    exact ⟨rfl, fun hsource => nomatch hsource⟩
  | content | setSyncing | reset | resetLoopDetector => exact absurd h List.not_mem_nil

end Policy

end SyncManager

/-! ### Runs -/

/-- The policy, and when it was last used. -/
structure Clocked where
  clock : Instant
  manager : SyncManager
  deriving DecidableEq, Repr

/-- Nothing has crossed. -/
def Clocked.fresh (config : LoopDetectionConfig) : Clocked := ⟨0, .withConfig config⟩

/-- The policy as a machine that reports what it records. -/
def policy (sha256 : List UInt8 → String) :
    Machine Clocked (Instant × SyncOp) ClipboardOperation where
  step s i := (⟨i.1, s.manager.perform sha256 i.1 i.2⟩, s.manager.recorded sha256 i.1 i.2)

/-- The clock does not go back. -/
def Forward (s : Clocked) (i : Instant × SyncOp) : Prop := s.clock ≤ i.1

instance (s : Clocked) (i : Instant × SyncOp) : Decidable (Forward s i) :=
  inferInstanceAs (Decidable (s.clock ≤ i.1))

/-- The record of announcements is in order, not ahead of the clock, and what it has from the
client are lists of formats. -/
structure Chronicle (sha256 : List UInt8 → String) (config : LoopDetectionConfig) (s : Clocked) :
    Prop where
  config_eq : s.manager.detector.config = config
  ordered : s.manager.detector.formatHistory.Pairwise fun a b => a.timestamp ≤ b.timestamp
  past : ∀ op ∈ s.manager.detector.formatHistory, op.timestamp ≤ s.clock
  fromClient : ∀ op ∈ s.manager.detector.formatHistory, op.source = .rdp →
    ∃ formats, op.hash = LoopDetector.hashFormats sha256 formats

variable {sha256 : List UInt8 → String} {config : LoopDetectionConfig}

theorem chronicle_fresh : Chronicle sha256 config (.fresh config) where
  config_eq := rfl
  ordered := List.Pairwise.nil
  past _ h := absurd h List.not_mem_nil
  fromClient _ h := absurd h List.not_mem_nil

theorem Chronicle.step {s : Clocked} {i : Instant × SyncOp} (h : Chronicle sha256 config s)
    (hi : Forward s i) : Chronicle sha256 config ((policy sha256).step s i).1 := by
  have hsub := s.manager.perform_history sha256 i.1 i.2
  have hcases : ∀ op ∈ (s.manager.perform sha256 i.1 i.2).detector.formatHistory,
      op ∈ s.manager.detector.formatHistory ∨ op ∈ s.manager.recorded sha256 i.1 i.2 :=
    fun op hop => List.mem_append.mp (hsub.mem hop)
  refine ⟨(s.manager.perform_config sha256 i.1 i.2).trans h.config_eq, ?_, ?_, ?_⟩
  · refine List.Pairwise.sublist hsub (List.pairwise_append.mpr ⟨h.ordered, ?_, ?_⟩)
    · exact List.pairwise_of_forall_mem_list fun a ha b hb => by
        rw [(SyncManager.mem_recorded sha256 ha).1, (SyncManager.mem_recorded sha256 hb).1]
    · intro a ha b hb
      rw [(SyncManager.mem_recorded sha256 hb).1]
      exact (h.past a ha).trans hi
  · intro op hop
    rcases hcases op hop with hold | hnew
    · exact (h.past op hold).trans hi
    · exact (SyncManager.mem_recorded sha256 hnew).1.le
  · intro op hop
    rcases hcases op hop with hold | hnew
    · exact h.fromClient op hold
    · exact (SyncManager.mem_recorded sha256 hnew).2

/-! ### The return of an announcement -/

/-- A local announcement that was accepted, and the return, within the window and with few other
records in between, of exactly the list advertised for it. -/
structure Bounce (sha256 : List UInt8 → String) where
  config : LoopDetectionConfig
  before : List (Instant × SyncOp)
  announcedAt : Instant
  mimeTypes : List String
  authoritative : Bool
  between : List (Instant × SyncOp)
  arrivesAt : Instant
  inOrder : (policy sha256).Along Forward (.fresh config)
    (before ++ (announcedAt, .portalFormats mimeTypes authoritative) :: between ++
      [(arrivesAt, .rdpFormats (mimeToRdpFormats mimeTypes))])
  accepted : (((policy sha256).exec (.fresh config) before).manager.handlePortalFormats sha256
    announcedAt mimeTypes authoritative).1 = .allow
  inWindow : arrivesAt - announcedAt ≤ millis config.windowMs.toNat
  few : ((policy sha256).trace ((policy sha256).exec (.fresh config)
    (before ++ [(announcedAt, .portalFormats mimeTypes authoritative)])) between).length <
      config.maxHistory

namespace Bounce

/-- The policy as the returning list finds it. -/
def atArrival (b : Bounce sha256) : SyncManager :=
  ((policy sha256).exec (.fresh b.config)
    (b.before ++ (b.announcedAt, .portalFormats b.mimeTypes b.authoritative) :: b.between)).manager

/-- The returning list is rejected. -/
def rejected (b : Bounce sha256) : Bool :=
  !(b.atArrival.handleRdpFormats sha256 b.arrivesAt (mimeToRdpFormats b.mimeTypes)).1

/-- A list of the client itself, with the bytes of the advertised one, is on record and not older
than the window. -/
def ClientRepeats (b : Bounce sha256) : Prop :=
  ∃ formats sentAt,
    ⟨LoopDetector.hashFormats sha256 formats, .rdp, sentAt⟩ ∈ b.atArrival.detector.formatHistory ∧
      formatsPreimage formats = formatsPreimage (mimeToRdpFormats b.mimeTypes) ∧
      b.arrivesAt - sentAt ≤ millis b.config.windowMs.toNat

theorem chronicle_atArrival (b : Bounce sha256) : Chronicle sha256 b.config ((policy sha256).exec
    (.fresh b.config)
    (b.before ++ (b.announcedAt, .portalFormats b.mimeTypes b.authoritative) :: b.between)) := by
  have hrun := ((policy sha256).along_append _ _ _).mp b.inOrder
  exact Machine.exec_invariant (fun _ _ h hi => h.step hi) chronicle_fresh hrun.1

theorem rejected_iff_wouldCauseLoop (b : Bounce sha256) :
    b.rejected = true ↔
      b.atArrival.detector.wouldCauseLoop sha256 b.arrivesAt
        (mimeToRdpFormats b.mimeTypes) = true := by
  rw [rejected, SyncManager.handleRdpFormats]
  split
  · rename_i hloop
    exact ⟨fun _ => hloop, fun _ => rfl⟩
  · rename_i hloop
    exact ⟨fun h => absurd h Bool.false_ne_true, fun h => absurd h hloop⟩

/-- **An echo is rejected exactly if the client's own list is on record.** The announcement it
echoes plays no part. -/
theorem echo_rejected_iff (hinjective : Function.Injective sha256) (b : Bounce sha256) :
    b.rejected = true ↔ b.ClientRepeats := by
  have hchronicle := b.chronicle_atArrival
  have hconfig : b.atArrival.detector.config = b.config := hchronicle.config_eq
  rw [rejected_iff_wouldCauseLoop, LoopDetector.wouldCauseLoop, LoopDetector.checkHashCollision,
    List.any_eq_true, hconfig]
  constructor
  · rintro ⟨op, hmem, hmatch⟩
    rw [Bool.and_eq_true, decide_eq_true_eq, decide_eq_true_eq] at hmatch
    obtain ⟨hsource, hhash⟩ := hmatch
    obtain ⟨hop, hrecent⟩ := (LoopDetector.mem_takeWhile_recent hchronicle.ordered).mp hmem
    obtain ⟨formats, hformats⟩ := hchronicle.fromClient op hop hsource
    refine ⟨formats, op.timestamp, ?_, hinjective (hformats.symm.trans hhash), ?_⟩
    · rw [← hformats]
      have hrdp : op.source = .rdp := hsource
      rw [← hrdp]
      exact hop
    · rwa [LoopDetector.recent, decide_eq_true_eq] at hrecent
  · rintro ⟨formats, sentAt, hop, hbytes, hrecent⟩
    refine ⟨⟨LoopDetector.hashFormats sha256 formats, .rdp, sentAt⟩,
      (LoopDetector.mem_takeWhile_recent hchronicle.ordered).mpr ⟨hop, decide_eq_true hrecent⟩, ?_⟩
    rw [Bool.and_eq_true, decide_eq_true_eq, decide_eq_true_eq]
    refine ⟨rfl, ?_⟩
    show sha256 (formatsPreimage formats) = sha256 (formatsPreimage (mimeToRdpFormats b.mimeTypes))
    rw [hbytes]

end Bounce

/-! ### Two returns of the same list -/

/-- A stand-in for the digest that keeps the bytes. -/
def verbatim (bytes : List UInt8) : String := String.ofList (bytes.map fun b => Char.ofNat b.toNat)

theorem toNat_ofNat_byte (b : UInt8) : (Char.ofNat b.toNat).toNat = b.toNat := by
  have hlt := b.toNat_lt
  rw [Char.ofNat, dif_pos (Or.inl (by omega))]
  rfl

theorem verbatim_injective : Function.Injective verbatim := by
  intro xs ys h
  refine List.map_injective_iff.mpr ?_ (String.ofList_injective h)
  intro a b hab
  have hnat := congrArg Char.toNat hab
  rw [toNat_ofNat_byte, toNat_ofNat_byte] at hnat
  exact UInt8.toNat_inj.mp hnat

/-- The defaults of the configuration. -/
def detectionDefaults : LoopDetectionConfig := ⟨500, 10, true⟩

/-- A local text selection is announced, and what is advertised for it comes back 100 ms later. -/
def mirroredText : Bounce verbatim where
  config := detectionDefaults
  before := []
  announcedAt := millis 1000
  mimeTypes := ["text/plain"]
  authoritative := true
  between := []
  arrivesAt := millis 1100
  inOrder := by decide +kernel
  accepted := by decide +kernel
  inWindow := by decide +kernel
  few := by decide +kernel

/-- The client mirrors the selection twice. -/
def mirroredTwice : Bounce verbatim :=
  { mirroredText with
    between := [(millis 1100, .rdpFormats (mimeToRdpFormats ["text/plain"]))]
    arrivesAt := millis 1200
    inOrder := by decide +kernel
    inWindow := by decide +kernel
    few := by decide +kernel }

/-- The first return is accepted: nothing of the client is on record. -/
theorem mirroredText_accepted :
    Function.Injective verbatim ∧ mirroredText.rejected = false :=
  ⟨verbatim_injective, by decide +kernel⟩

/-- The second is rejected: the first one is. -/
theorem mirroredTwice_rejected : mirroredTwice.ClientRepeats ∧ mirroredTwice.rejected = true :=
  ⟨(Bounce.echo_rejected_iff verbatim_injective mirroredTwice).mp (by decide +kernel),
    (Bounce.echo_rejected_iff verbatim_injective mirroredTwice).mpr
      ⟨mimeToRdpFormats ["text/plain"], millis 1100, by decide +kernel, rfl, by decide +kernel⟩⟩

end Clipboard

end Cheirizo
