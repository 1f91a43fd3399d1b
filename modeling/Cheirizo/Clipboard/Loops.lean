import Mathlib.Data.List.TakeWhile
import Cheirizo.Clipboard.Echo

/-!
# What the loop detector remembers

The detector keeps two histories, drops from their front what has grown old or is too much, and
looks through them backwards up to the first record outside the window. Both only ever leave out
records that cannot count: the clock does not go back, so a record outside the window has nothing
inside it before it, and what is dropped for its age is twice as old. So the answer is the one that
the last records of the whole run give.

A routine that records reads the clock twice, for the record and for the cleaning; here the two
times may differ.

## Main definitions

* `LoopCall`, `LoopDetector.record` — a call that records
* `detection` — the detector as a machine that reports what it records
* `Echoed` — a record of the other side, recent and among the last ones

## Main results

* `Faithful.step`, `Faithful.exec` — nothing that can count is lost
* `loop_detection_exact` — the three questions are answered exactly
-/

namespace Cheirizo

namespace Clipboard

/-! ### Calls -/

/-- The two histories. -/
inductive LoopHistory where
  | offers
  | contents
  deriving DecidableEq, Repr

/-- What is recorded. -/
inductive LoopSubject where
  | formats (formats : List ClipboardFormat)
  | mimeTypes (mimeTypes : List String)
  | content (data : List UInt8)
  deriving DecidableEq, Repr

/-- A call of `record_formats`, `record_mime_types` or `record_content`, with the two times at which
it reads the clock. -/
structure LoopCall where
  subject : LoopSubject
  source : ClipboardSource
  stampedAt : Instant
  cleanedAt : Instant
  deriving DecidableEq, Repr

namespace LoopDetector

/-- Offers and contents are remembered apart. -/
def history (d : LoopDetector) : LoopHistory → List ClipboardOperation
  | .offers => d.formatHistory
  | .contents => d.contentHistory

section Hashing

variable (sha256 : List UInt8 → String)

/-- A record is stamped first, and the histories are cleaned by a later reading of the clock. -/
def record (d : LoopDetector) (call : LoopCall) : LoopDetector :=
  match call.subject with
  | .formats formats => cleanupHistory
      { d with
        formatHistory :=
          d.formatHistory ++ [⟨hashFormats sha256 formats, call.source, call.stampedAt⟩] }
      call.cleanedAt
  | .mimeTypes mimeTypes => cleanupHistory
      { d with
        formatHistory :=
          d.formatHistory ++ [⟨hashMimeTypes sha256 mimeTypes, call.source, call.stampedAt⟩] }
      call.cleanedAt
  | .content data =>
    if d.config.enableContentHashing then
      cleanupHistory
        { d with
          contentHistory := d.contentHistory ++ [⟨sha256 data, call.source, call.stampedAt⟩] }
        call.cleanedAt
    else d

/-- What the call adds to the histories. -/
def recorded (d : LoopDetector) (call : LoopCall) : List (LoopHistory × ClipboardOperation) :=
  match call.subject with
  | .formats formats => [(.offers, ⟨hashFormats sha256 formats, call.source, call.stampedAt⟩)]
  | .mimeTypes mimeTypes =>
    [(.offers, ⟨hashMimeTypes sha256 mimeTypes, call.source, call.stampedAt⟩)]
  | .content data =>
    if d.config.enableContentHashing then
      [(.contents, ⟨sha256 data, call.source, call.stampedAt⟩)]
    else []

end Hashing

end LoopDetector

/-! ### Cleaning up, from the newest record -/

namespace LoopDetector

variable {config : LoopDetectionConfig} {now : Instant}

/-- The record is not older than twice the window. -/
def fresh (config : LoopDetectionConfig) (now : Instant) (op : ClipboardOperation) : Bool :=
  !stale config now op

theorem fresh_iff {op : ClipboardOperation} :
    fresh config now op = true ↔ now - op.timestamp ≤ millis (config.windowMs * 2).toNat := by
  rw [fresh, stale, recent, Bool.not_not, decide_eq_true_eq]

/-- In a list in order, what is left without the old front is what is found from the back. -/
theorem reverse_dropWhile_stale {history : List ClipboardOperation}
    (hordered : history.Pairwise fun a b => a.timestamp ≤ b.timestamp) :
    (history.dropWhile (stale config now)).reverse =
      history.reverse.takeWhile (fresh config now) := by
  induction history with
  | nil => rfl
  | cons oldest newer ih =>
    obtain ⟨holdest, hnewer⟩ := List.pairwise_cons.mp hordered
    rw [List.reverse_cons]
    by_cases hstale : stale config now oldest = true
    · have hnone : [oldest].takeWhile (fresh config now) = [] := by
        rw [List.takeWhile_cons_of_neg (by simp [fresh, hstale])]
      rw [List.dropWhile_cons_of_pos hstale, ih hnewer, List.takeWhile_append, hnone,
        List.append_nil]
      split
      · rename_i hall
        rw [(List.takeWhile_prefix _).eq_of_length hall]
      · rfl
    · have hfresh : fresh config now oldest = true := by simpa [fresh] using hstale
      have hall : ∀ op ∈ newer.reverse ++ [oldest], fresh config now op = true := by
        intro op hop
        rw [fresh_iff] at hfresh ⊢
        obtain hop | hop := List.mem_append.mp hop
        · have hle := holdest op (List.mem_reverse.mp hop)
          exact (Nat.sub_le_sub_left hle now).trans hfresh
        · rwa [List.mem_singleton.mp hop]
      rw [List.dropWhile_cons_of_neg hstale, List.reverse_cons, List.takeWhile_eq_self_iff.mpr hall]

theorem reverse_cleanup {history : List ClipboardOperation}
    (hordered : history.Pairwise fun a b => a.timestamp ≤ b.timestamp) :
    (cleanup config now history).reverse =
      (history.reverse.takeWhile (fresh config now)).take config.maxHistory := by
  rw [cleanup, ← reverse_dropWhile_stale hordered, List.take_reverse]

/-- What is fresh later is fresh now. -/
theorem fresh_mono {later : Instant} (h : now ≤ later) {op : ClipboardOperation}
    (hop : fresh config later op = true) : fresh config now op = true := by
  rw [fresh_iff] at hop ⊢
  exact (Nat.sub_le_sub_right h _).trans hop

/-- Without an overflow, what is in the window is in the doubled one. -/
theorem fresh_of_recent (hwindow : config.windowMs.toNat * 2 < 2 ^ 64) {op : ClipboardOperation}
    (h : recent (millis config.windowMs.toNat) now op = true) : fresh config now op = true := by
  have hdouble : (config.windowMs * 2).toNat = config.windowMs.toNat * 2 := by
    rw [UInt64.toNat_mul]
    exact Nat.mod_eq_of_lt hwindow
  rw [recent, decide_eq_true_eq] at h
  rw [fresh_iff, hdouble]
  exact h.trans (Nat.mul_le_mul_right _ (Nat.le_mul_of_pos_right _ (by decide)))

end LoopDetector

/-- A predicate that implies another cuts a list no later. -/
theorem takeWhile_takeWhile_of_imp {α : Type*} {p q : α → Bool} (h : ∀ a, q a = true → p a = true)
    (l : List α) : (l.takeWhile p).takeWhile q = l.takeWhile q := by
  rw [List.takeWhile_takeWhile]
  congr 1
  funext a
  by_cases hq : q a = true
  · simp [hq, h a hq]
  · simp [hq]

/-- If two lists show the same up to a length, they still do below new elements in front. -/
theorem takeWhile_take_append {α : Type*} {q : α → Bool} {xs ys : List α} {n : ℕ}
    (h : ∀ m ≤ n, (xs.take m).takeWhile q = (ys.take m).takeWhile q) (new : List α) :
    ((new ++ xs).take n).takeWhile q = ((new ++ ys).take n).takeWhile q := by
  induction new generalizing n with
  | nil => exact h n (Nat.le_refl n)
  | cons a new ih =>
    cases n with
    | zero => rfl
    | succ n =>
      rw [List.cons_append, List.cons_append, List.take_succ_cons, List.take_succ_cons,
        List.takeWhile_cons, List.takeWhile_cons, ih fun m hm => h m (Nat.le_succ_of_le hm)]

/-! ### Runs -/

/-- The detector, and when it was last used. -/
structure Detection where
  clock : Instant
  detector : LoopDetector
  deriving DecidableEq, Repr

/-- A detector that has recorded nothing. -/
def Detection.fresh (config : LoopDetectionConfig) : Detection := ⟨0, .withConfig config⟩

/-- The detector as a machine that reports what it records. -/
def detection (sha256 : List UInt8 → String) :
    Machine Detection LoopCall (LoopHistory × ClipboardOperation) where
  step s call := (⟨call.cleanedAt, s.detector.record sha256 call⟩, s.detector.recorded sha256 call)

/-- The clock does not go back. -/
def InOrder (s : Detection) (call : LoopCall) : Prop :=
  s.clock ≤ call.stampedAt ∧ call.stampedAt ≤ call.cleanedAt

instance (s : Detection) (call : LoopCall) : Decidable (InOrder s call) :=
  inferInstanceAs (Decidable (_ ∧ _))

/-- The records of one history. -/
def recordsOf (kind : LoopHistory) (log : List (LoopHistory × ClipboardOperation)) :
    List ClipboardOperation :=
  (log.filter fun entry => entry.1 = kind).map Prod.snd

theorem recordsOf_append (kind : LoopHistory) (log more : List (LoopHistory × ClipboardOperation)) :
    recordsOf kind (log ++ more) = recordsOf kind log ++ recordsOf kind more := by
  rw [recordsOf, List.filter_append, List.map_append, recordsOf, recordsOf]

open LoopDetector

/-- The histories against everything that was recorded: in order, and of the last records the
histories have at least those that are fresh from now on. -/
structure Faithful (config : LoopDetectionConfig) (s : Detection)
    (log : List (LoopHistory × ClipboardOperation)) : Prop where
  config_eq : s.detector.config = config
  ordered : ∀ kind, (recordsOf kind log).Pairwise fun a b => a.timestamp ≤ b.timestamp
  past : ∀ kind, ∀ op ∈ recordsOf kind log, op.timestamp ≤ s.clock
  sublist : ∀ kind, (s.detector.history kind).Sublist (recordsOf kind log)
  kept : ∀ kind now, s.clock ≤ now →
    (s.detector.history kind).reverse.takeWhile (fresh config now) =
      ((recordsOf kind log).reverse.take config.maxHistory).takeWhile (fresh config now)

section Runs

variable {sha256 : List UInt8 → String} {config : LoopDetectionConfig}

theorem faithful_fresh : Faithful config (.fresh config) [] where
  config_eq := rfl
  ordered _ := List.Pairwise.nil
  past _ _ h := absurd h List.not_mem_nil
  sublist kind := by cases kind <;> exact List.Sublist.refl _
  kept kind _ _ := by cases kind <;> simp [recordsOf, Detection.fresh, withConfig, history]

/-- What a call leaves of a history: the record it adds, if it is of that kind, and of it all what
is neither old nor too much. -/
theorem history_record (sha256 : List UInt8 → String) (d : LoopDetector) (call : LoopCall)
    (kind : LoopHistory) :
    (d.record sha256 call).history kind = d.history kind ∧ d.recorded sha256 call = [] ∨
      (d.record sha256 call).history kind = cleanup d.config call.cleanedAt
        (d.history kind ++ recordsOf kind (d.recorded sha256 call)) := by
  obtain ⟨subject, source, stampedAt, cleanedAt⟩ := call
  cases subject with
  | formats formats =>
    right
    cases kind <;> simp [record, recorded, history, cleanupHistory, recordsOf]
  | mimeTypes mimeTypes =>
    right
    cases kind <;> simp [record, recorded, history, cleanupHistory, recordsOf]
  | content data =>
    by_cases hhashing : d.config.enableContentHashing = true
    · right
      cases kind <;> simp [record, recorded, history, cleanupHistory, recordsOf, hhashing]
    · left
      simp [record, recorded, hhashing]

theorem record_config (d : LoopDetector) (call : LoopCall) :
    (d.record sha256 call).config = d.config := by
  obtain ⟨subject, source, stampedAt, cleanedAt⟩ := call
  cases subject with
  | formats | mimeTypes => rfl
  | content data =>
    dsimp only [record]
    split <;> rfl

/-- A call adds at most one record, with its own time. -/
theorem recorded_cases (sha256 : List UInt8 → String) (d : LoopDetector) (call : LoopCall)
    (kind : LoopHistory) :
    recordsOf kind (d.recorded sha256 call) = [] ∨
      ∃ op, recordsOf kind (d.recorded sha256 call) = [op] ∧ op.timestamp = call.stampedAt := by
  obtain ⟨subject, source, stampedAt, cleanedAt⟩ := call
  have hone : ∀ entry : LoopHistory × ClipboardOperation, entry.2.timestamp = stampedAt →
      recordsOf kind [entry] = [] ∨
        ∃ op, recordsOf kind [entry] = [op] ∧ op.timestamp = stampedAt := by
    intro entry hentry
    by_cases hkind : entry.1 = kind
    · exact Or.inr ⟨entry.2, by simp [recordsOf, hkind], hentry⟩
    · exact Or.inl (by simp [recordsOf, hkind])
  cases subject with
  | formats formats => exact hone _ rfl
  | mimeTypes mimeTypes => exact hone _ rfl
  | content data =>
    dsimp only [recorded]
    split
    · exact hone _ rfl
    · exact Or.inl rfl

theorem timestamp_of_mem_recorded {d : LoopDetector} {call : LoopCall} {kind : LoopHistory}
    {op : ClipboardOperation} (hop : op ∈ recordsOf kind (d.recorded sha256 call)) :
    op.timestamp = call.stampedAt := by
  obtain hnone | ⟨new, hone, htime⟩ := recorded_cases sha256 d call kind
  · exact absurd (hnone ▸ hop) List.not_mem_nil
  · rw [hone, List.mem_singleton] at hop
    rw [hop, htime]

section Step

variable {s : Detection} {log : List (LoopHistory × ClipboardOperation)} {call : LoopCall}

/-- The record that a call adds is no older than those before it. -/
theorem Faithful.ordered_recorded (h : Faithful config s log) (hstamped : s.clock ≤ call.stampedAt)
    (kind : LoopHistory) :
    (recordsOf kind log ++ recordsOf kind (s.detector.recorded sha256 call)).Pairwise
      fun a b => a.timestamp ≤ b.timestamp := by
  refine List.pairwise_append.mpr ⟨h.ordered kind, ?_, fun a ha b hb => ?_⟩
  · exact List.pairwise_of_forall_mem_list fun a ha b hb => by
      rw [timestamp_of_mem_recorded ha, timestamp_of_mem_recorded hb]
  · rw [timestamp_of_mem_recorded hb]
    exact (h.past kind a ha).trans hstamped

/-- After a call the histories still have what is fresh from then on: what the cleaning drops for
its age would not have been looked at. -/
theorem Faithful.kept_record (h : Faithful config s log) (hcall : InOrder s call)
    (kind : LoopHistory) {now : Instant} (hnow : call.cleanedAt ≤ now) :
    ((s.detector.record sha256 call).history kind).reverse.takeWhile (fresh config now) =
      ((recordsOf kind log ++
        recordsOf kind (s.detector.recorded sha256 call)).reverse.take config.maxHistory).takeWhile
          (fresh config now) := by
  obtain ⟨hstamped, hcleaned⟩ := hcall
  have hkept := h.kept kind now (hstamped.trans (hcleaned.trans hnow))
  obtain ⟨hsame, hnone⟩ | hcleanup := history_record sha256 s.detector call kind
  · have hlog : recordsOf kind (s.detector.recorded sha256 call) = [] :=
      congrArg (recordsOf kind) hnone
    rw [hsame, hkept, hlog, List.append_nil]
  · have hlater : ∀ op, fresh config now op = true → fresh config call.cleanedAt op = true :=
      fun _ => fresh_mono hnow
    have hsublist := (h.sublist kind).append_right
      (recordsOf kind (s.detector.recorded sha256 call))
    rw [hcleanup, h.config_eq,
      reverse_cleanup ((h.ordered_recorded hstamped kind).sublist hsublist),
      List.take_takeWhile, takeWhile_takeWhile_of_imp hlater, List.reverse_append,
      List.reverse_append]
    refine takeWhile_take_append (fun m hm => ?_) _
    rw [← List.take_takeWhile, hkept, List.take_takeWhile, List.take_take, Nat.min_eq_left hm]

theorem Faithful.step (h : Faithful config s log) (hcall : InOrder s call) :
    Faithful config ((detection sha256).step s call).1
      (log ++ ((detection sha256).step s call).2) := by
  obtain ⟨hstamped, hcleaned⟩ := hcall
  refine ⟨(record_config s.detector call).trans h.config_eq, fun kind => ?_, fun kind op hop => ?_,
    fun kind => ?_, fun kind now hnow => ?_⟩
  · rw [recordsOf_append]
    exact h.ordered_recorded hstamped kind
  · rw [recordsOf_append, List.mem_append] at hop
    obtain hop | hop := hop
    · exact (h.past kind op hop).trans (hstamped.trans hcleaned)
    · exact (timestamp_of_mem_recorded hop).trans_le hcleaned
  · rw [recordsOf_append]
    obtain ⟨hsame, hnone⟩ | hcleanup := history_record sha256 s.detector call kind
    · exact hsame ▸ (h.sublist kind).trans (List.sublist_append_left ..)
    · exact hcleanup ▸ (cleanup_sublist _).trans ((h.sublist kind).append_right _)
  · rw [recordsOf_append]
    exact h.kept_record ⟨hstamped, hcleaned⟩ kind hnow

end Step

theorem Faithful.exec {s : Detection} {log : List (LoopHistory × ClipboardOperation)}
    {calls : List LoopCall} (h : Faithful config s log)
    (hcalls : (detection sha256).Along InOrder s calls) :
    Faithful config ((detection sha256).exec s calls)
      (log ++ (detection sha256).trace s calls) := by
  induction calls generalizing s log with
  | nil => exact (List.append_nil log).symm ▸ h
  | cons call calls ih =>
    have hrest := ih (h.step hcalls.1) hcalls.2
    rw [List.append_assoc] at hrest
    exact hrest

end Runs

/-! ### The answers -/

/-- Among the last records there is one with this fingerprint, not older than the window, of the
side opposite to `source`. -/
def Echoed (config : LoopDetectionConfig) (now : Instant) (records : List ClipboardOperation)
    (hash : String) (source : ClipboardSource) : Prop :=
  ∃ op ∈ records.drop (records.length - config.maxHistory), op.hash = hash ∧
    now - op.timestamp ≤ millis config.windowMs.toNat ∧ op.source = source.opposite

section Answers

variable {sha256 : List UInt8 → String} {config : LoopDetectionConfig}

theorem Faithful.checkHashCollision_iff {s : Detection}
    {log : List (LoopHistory × ClipboardOperation)} {now : Instant} (h : Faithful config s log)
    (hwindow : config.windowMs.toNat * 2 < 2 ^ 64) (hnow : s.clock ≤ now) (kind : LoopHistory)
    (hash : String) (source : ClipboardSource) :
    checkHashCollision s.detector.config now (s.detector.history kind) hash source = true ↔
      Echoed config now (recordsOf kind log) hash source := by
  have hlast : (recordsOf kind log).reverse.take config.maxHistory = ((recordsOf kind log).drop
      ((recordsOf kind log).length - config.maxHistory)).reverse := List.take_reverse
  have hfresh : ∀ op, recent (millis config.windowMs.toNat) now op = true →
      fresh config now op = true := fun _ => fresh_of_recent hwindow
  have hseen := congrArg (·.takeWhile (recent (millis config.windowMs.toNat) now))
    (h.kept kind now hnow)
  rw [takeWhile_takeWhile_of_imp hfresh, takeWhile_takeWhile_of_imp hfresh, hlast] at hseen
  have hordered := (h.ordered kind).sublist
    (List.drop_sublist ((recordsOf kind log).length - config.maxHistory) (recordsOf kind log))
  rw [checkHashCollision, h.config_eq, hseen, List.any_eq_true, Echoed]
  refine exists_congr fun op => ?_
  rw [mem_takeWhile_recent hordered, recent, decide_eq_true_eq, Bool.and_eq_true, decide_eq_true_eq,
    decide_eq_true_eq]
  tauto

/-- **Loop detection is exact.** In every run in which the clock does not go back, the detector
answers from the last records of the run as if it had forgotten none of them. -/
theorem loop_detection_exact (hwindow : config.windowMs.toNat * 2 < 2 ^ 64)
    {calls : List LoopCall} (hcalls : (detection sha256).Along InOrder (.fresh config) calls)
    {now : Instant} (hnow : ((detection sha256).exec (.fresh config) calls).clock ≤ now) :
    let d := ((detection sha256).exec (.fresh config) calls).detector
    let log := (detection sha256).trace (.fresh config) calls
    (∀ formats, d.wouldCauseLoop sha256 now formats = true ↔
      Echoed config now (recordsOf .offers log) (hashFormats sha256 formats) .desktop) ∧
    (∀ mimeTypes, d.wouldCauseLoopMime sha256 now mimeTypes = true ↔
      Echoed config now (recordsOf .offers log) (hashMimeTypes sha256 mimeTypes) .rdp) ∧
    (config.enableContentHashing = true → ∀ data source,
      d.wouldCauseContentLoop sha256 now data source = true ↔
        Echoed config now (recordsOf .contents log) (sha256 data) source) := by
  have h : Faithful config _ ((detection sha256).trace (.fresh config) calls) :=
    faithful_fresh.exec hcalls
  refine ⟨fun formats => ?_, fun mimeTypes => ?_, fun hhashing data source => ?_⟩
  · exact h.checkHashCollision_iff hwindow hnow .offers _ _
  · exact h.checkHashCollision_iff hwindow hnow .offers _ _
  · have hon := congrArg LoopDetectionConfig.enableContentHashing h.config_eq
    rw [wouldCauseContentLoop, hon, hhashing, Bool.true_and]
    exact h.checkHashCollision_iff hwindow hnow .contents _ _

end Answers

/-- An offer of the client, a content, and the offer once more, half a second after the first. -/
def repeatedOffer : List LoopCall :=
  [⟨.formats [.unicodeText], .rdp, millis 1000, millis 1001⟩,
    ⟨.content [65], .desktop, millis 1100, millis 1100⟩]

theorem repeatedOffer_detected :
    ((detection verbatim).exec (.fresh detectionDefaults)
      repeatedOffer).detector.wouldCauseLoop verbatim (millis 1500) [.unicodeText] = true :=
  ((loop_detection_exact (by decide) (by decide +kernel) (by decide +kernel)).1 _).mpr
    ⟨⟨verbatim (formatsPreimage [.unicodeText]), .rdp, millis 1000⟩, by decide +kernel, rfl,
      by decide +kernel, rfl⟩

end Clipboard

end Cheirizo
