import Cheirizo.Lib.Machine
import Cheirizo.Graphics.Avc444

/-!
# What the decoder gets of what was encoded

Two things are asked of the AVC444 encoder over a run. What the decoder is sent must be what the
shared encoder produced, since later pictures refer to earlier ones; and an auxiliary view may be
left out as unchanged only if the decoder still has it. Both are kept by most calls and broken by a
few, where one of the two encodes succeeds and its stream is then dropped.

## Main definitions

* `Ledger` — the encoder, with what was produced and returned, and the view the decoder has

## Main results

* `auxHash_iff` — when the remembered hash is that of the view the decoder has
* `produced_returned_iff` — when everything produced is returned and no refresh is dropped
-/

namespace Cheirizo

namespace Graphics

/-! ### Runs -/

/-- What is asked of the encoder. -/
inductive EncoderInput where
  | requestIdr
  | configureAuxOmission (enable : Bool) (maxInterval : UInt32)
  | configurePeriodicIdr (intervalSecs : UInt32) (now : Instant)
  | encode (call : EncodeCall)

/-- The encoder, with a record of what it did: the bitstreams produced and the streams returned, a
refresh that was started and not yet returned, the auxiliary view the decoder has, and whether one
was ever left out as unchanged when the decoder had another. -/
structure Ledger where
  encoder : Avc444Encoder
  produced : List (List UInt8)
  returned : List (List UInt8)
  owed : Bool
  shown : Option Yuv420Frame
  stale : Bool

namespace Ledger

/-- A new encoder, of which nothing was asked. -/
def start (colorMatrix : ColorMatrix) (now : Instant) : Ledger :=
  ⟨.new colorMatrix now, [], [], false, none, false⟩

/-- Write down a call for a frame with the given auxiliary view. -/
def record (l : Ledger) (view : Option Yuv420Frame) (run : EncodeRun) : Ledger :=
  { encoder := run.encoder
    produced := l.produced ++ run.encodes.flatMap Encoded.produced
    returned := l.returned ++ run.outcome.streams l.encoder.cachedSpsPps
    owed := (l.owed || run.forced) && !run.outcome.returnsAux
    shown := if run.outcome.returnsAux then view else l.shown
    stale := l.stale || (run.outcome.isFrame && run.omitted = some .compareContentHash &&
      l.shown ≠ view) }

/-- The call is recorded with the view it was given. -/
def encode (extension : Extension) (l : Ledger) (call : EncodeCall) : Ledger :=
  l.record (l.encoder.acceptedView extension call) (l.encoder.encodeBgra extension call)

/-- A request for a keyframe is owed until it is met. -/
def step (extension : Extension) (l : Ledger) : EncoderInput → Ledger
  | .requestIdr => { l with encoder := l.encoder.requestIdr, owed := true }
  | .configureAuxOmission enable maxInterval =>
    { l with encoder := l.encoder.configureAuxOmission enable maxInterval }
  | .configurePeriodicIdr intervalSecs now =>
    { l with encoder := l.encoder.configurePeriodicIdr intervalSecs now }
  | .encode call => l.encode extension call

end Ledger

/-- The encoder as a machine that answers calls. -/
def avc444Machine (extension : Extension) : Machine Ledger EncoderInput EncodeOutcome where
  step l input := (l.step extension input,
    match input with
    | .encode call => [(l.encoder.encodeBgra extension call).outcome]
    | _ => [])

/-! ### What a call adds to the record -/

namespace Ledger

variable {extension : Extension} {l : Ledger} {call : EncodeCall} {view : Yuv420Frame}
  {data : List UInt8} {k : Bool}

/-- Without a frame, what was produced is all there is to write down. -/
theorem record_no_frame {run : EncodeRun} {seen : Option Yuv420Frame}
    (h : run.outcome.isFrame = false) :
    l.record seen run =
      { l with
        encoder := run.encoder
        produced := l.produced ++ run.encodes.flatMap Encoded.produced
        owed := l.owed || run.forced } := by
  have hstreams : run.outcome.streams l.encoder.cachedSpsPps = [] := by
    cases hout : run.outcome with
    | frame f => rw [hout] at h; cases h
    | _ => rfl
  have haux : run.outcome.returnsAux = false := by
    cases hout : run.outcome with
    | frame f => rw [hout] at h; cases h
    | _ => rfl
  rw [record, hstreams, haux, h]
  simp

theorem encode_refused (h : l.encoder.acceptedView extension call = none) :
    l.encode extension call = l := by
  obtain ⟨outcome, hrun, hframe⟩ := Avc444Encoder.encodeBgra_refused h
  rw [encode, hrun, record_no_frame hframe]
  simp

/-- If the main view is not encoded, only a refresh can have been started. -/
theorem encode_failed {message : String} (h : l.encoder.acceptedView extension call = some view)
    (hmain : call.main = .failed message) :
    l.encode extension call =
      { l with
        encoder := (l.encoder.shouldForceIdr call.now).2
        owed := l.owed || (l.encoder.shouldForceIdr call.now).1 } := by
  rw [encode, Avc444Encoder.encodeBgra_accepted h, Avc444Encoder.encodeViews, hmain]
  dsimp only
  rw [record_no_frame rfl]
  simp [Encoded.produced]

/-- What the end of a call adds, with the encoder as the encodes left it. -/
theorem record_finish (e : Avc444Encoder) (hcached : e.cachedSpsPps = l.encoder.cachedSpsPps)
    (stream2 : Option (List UInt8)) (encodes : List Encoded) (forced : Bool)
    (omitted : Option AuxStreamPrecheck) :
    ∃ e' : Avc444Encoder, e'.lastAuxHash = e.lastAuxHash ∧ e'.pending = e.pending ∧
      l.record (some view) ⟨(e.finish call data k stream2).1, (e.finish call data k stream2).2,
          encodes, forced, omitted⟩ =
        if data = [] then
          { l with
            encoder := e'
            produced := l.produced ++ encodes.flatMap Encoded.produced
            owed := l.owed || forced }
        else
          { encoder := e'
            produced := l.produced ++ encodes.flatMap Encoded.produced
            returned := l.returned ++ data :: stream2.toList
            owed := (l.owed || forced) && !stream2.isSome
            shown := if stream2.isSome then some view else l.shown
            stale := l.stale || (omitted = some .compareContentHash && l.shown ≠ some view) } := by
  by_cases hdata : data = []
  · refine ⟨e, rfl, rfl, ?_⟩
    rw [hdata, Avc444Encoder.finish_nil, if_pos rfl]
    exact record_no_frame rfl
  · obtain ⟨frame, cached, hfinish, hstreams, hframe⟩ := e.finish_frame call k stream2 hdata
    refine ⟨{ e with cachedSpsPps := cached }, rfl, rfl, ?_⟩
    rw [if_neg hdata, hfinish, record, ← hcached]
    dsimp only
    rw [hstreams]
    simp [EncodeOutcome.returnsAux, EncodeOutcome.isFrame, hframe]

/-- The encoder's decision for a view, after the check for a refresh. -/
def sends (l : Ledger) (call : EncodeCall) (view : Yuv420Frame) : Bool :=
  ((l.encoder.shouldForceIdr call.now).2.shouldSendAux view).1

/-- The encoder after the two checks has no refresh pending. -/
theorem pending_checked (l : Ledger) (call : EncodeCall) (view : Yuv420Frame) :
    ((l.encoder.shouldForceIdr call.now).2.shouldSendAux view).2.pending = false := by
  rw [Avc444Encoder.shouldSendAux_snd, Avc444Encoder.pending, Bool.or_false]
  exact (Avc444Encoder.pending_shouldForceIdr _ _).1

theorem lastAuxHash_checked (l : Ledger) (call : EncodeCall) (view : Yuv420Frame) :
    ((l.encoder.shouldForceIdr call.now).2.shouldSendAux view).2.lastAuxHash =
      l.encoder.lastAuxHash := by
  rw [Avc444Encoder.shouldSendAux_snd]
  exact Avc444Encoder.lastAuxHash_shouldForceIdr _ _

theorem cachedSpsPps_checked (l : Ledger) (call : EncodeCall) (view : Yuv420Frame) :
    ((l.encoder.shouldForceIdr call.now).2.shouldSendAux view).2.cachedSpsPps =
      l.encoder.cachedSpsPps := by
  rw [Avc444Encoder.shouldSendAux_snd]
  exact Avc444Encoder.cachedSpsPps_shouldForceIdr _ _

/-- The auxiliary view is left out by one of the rules. -/
theorem encode_omitted (h : l.encoder.acceptedView extension call = some view)
    (hmain : call.main = .bitstream data k) (hsend : l.sends call view = false) :
    ∃ e : Avc444Encoder, e.lastAuxHash = l.encoder.lastAuxHash ∧ e.pending = false ∧
      l.encode extension call =
        if data = [] then
          { l with encoder := e, owed := l.owed || (l.encoder.shouldForceIdr call.now).1 }
        else
          { l with
            encoder := e
            produced := l.produced ++ [data]
            returned := l.returned ++ [data]
            owed := l.owed || (l.encoder.shouldForceIdr call.now).1
            stale := l.stale ||
              ((l.encoder.shouldForceIdr call.now).2.precheck = .compareContentHash &&
                l.shown ≠ some view) } := by
  rw [sends] at hsend
  rw [encode, h, Avc444Encoder.encodeBgra_accepted h, Avc444Encoder.encodeViews, hmain]
  dsimp only
  rw [hsend, if_neg Bool.false_ne_true]
  obtain ⟨e, hhash, hpending, hrecord⟩ := record_finish (l := l)
    { ((l.encoder.shouldForceIdr call.now).2.shouldSendAux view).2 with
      framesSinceAux :=
        ((l.encoder.shouldForceIdr call.now).2.shouldSendAux view).2.framesSinceAux + 1 }
    (l.cachedSpsPps_checked call view) none [.bitstream data k]
    (l.encoder.shouldForceIdr call.now).1 (some (l.encoder.shouldForceIdr call.now).2.precheck)
  refine ⟨e, hhash.trans (l.lastAuxHash_checked call view),
    hpending.trans (l.pending_checked call view), hrecord.trans ?_⟩
  by_cases hdata : data = []
  · simp [hdata, Encoded.produced]
  · simp [hdata, Encoded.produced]

/-- The auxiliary view is encoded after the main view, and fails. -/
theorem encode_aux_failed {message : String}
    (h : l.encoder.acceptedView extension call = some view)
    (hmain : call.main = .bitstream data k) (haux : call.aux = .failed message)
    (hsend : l.sends call view = true) :
    ∃ e : Avc444Encoder, e.lastAuxHash = l.encoder.lastAuxHash ∧ e.pending = false ∧
      l.encode extension call =
        { l with
          encoder := e
          produced := l.produced ++ call.main.produced
          owed := l.owed || (l.encoder.shouldForceIdr call.now).1 } := by
  rw [sends] at hsend
  rw [encode, h, Avc444Encoder.encodeBgra_accepted h, Avc444Encoder.encodeViews, hmain]
  dsimp only
  rw [hsend, if_pos rfl, Avc444Encoder.encodeAux, haux]
  refine ⟨_, l.lastAuxHash_checked call view, l.pending_checked call view, ?_⟩
  rw [record_no_frame rfl]
  simp [Encoded.produced]

/-- The auxiliary view is encoded after the main view. -/
theorem encode_aux {auxData : List UInt8} {auxKeyframe : Bool}
    (h : l.encoder.acceptedView extension call = some view)
    (hmain : call.main = .bitstream data k) (haux : call.aux = .bitstream auxData auxKeyframe)
    (hsend : l.sends call view = true) :
    ∃ e : Avc444Encoder,
      e.lastAuxHash =
        (if auxData = [] then l.encoder.lastAuxHash else some (hashYuv420 view)) ∧
      e.pending = false ∧
      l.encode extension call =
        if data = [] then
          { l with
            encoder := e
            produced := l.produced ++ call.aux.produced
            owed := l.owed || (l.encoder.shouldForceIdr call.now).1 }
        else
          { l with
            encoder := e
            produced := l.produced ++ data :: call.aux.produced
            returned := l.returned ++ data :: call.aux.produced
            owed := (l.owed || (l.encoder.shouldForceIdr call.now).1) && auxData = []
            shown := if auxData = [] then l.shown else some view } := by
  rw [sends] at hsend
  rw [encode, h, Avc444Encoder.encodeBgra_accepted h, Avc444Encoder.encodeViews, hmain]
  dsimp only
  rw [hsend, if_pos rfl, Avc444Encoder.encodeAux, haux]
  dsimp only
  by_cases hauxData : auxData = []
  · rw [if_pos hauxData, if_pos hauxData]
    obtain ⟨e, hhash, hpending, hrecord⟩ := record_finish (l := l)
      { ((l.encoder.shouldForceIdr call.now).2.shouldSendAux view).2 with
        framesSinceAux :=
          ((l.encoder.shouldForceIdr call.now).2.shouldSendAux view).2.framesSinceAux + 1 }
      (l.cachedSpsPps_checked call view) none [.bitstream data k, .bitstream auxData auxKeyframe]
      (l.encoder.shouldForceIdr call.now).1 none
    refine ⟨e, hhash.trans (l.lastAuxHash_checked call view),
      hpending.trans (l.pending_checked call view), hrecord.trans ?_⟩
    by_cases hdata : data = []
    · simp [hdata, hauxData, Encoded.produced]
    · simp [hdata, hauxData, Encoded.produced]
  · rw [if_neg hauxData, if_neg hauxData]
    obtain ⟨e, hhash, hpending, hrecord⟩ := record_finish (l := l)
      { ((l.encoder.shouldForceIdr call.now).2.shouldSendAux view).2 with
        lastAuxHash := some (hashYuv420 view)
        framesSinceAux := 0 }
      (l.cachedSpsPps_checked call view) (some auxData)
      [.bitstream data k, .bitstream auxData auxKeyframe]
      (l.encoder.shouldForceIdr call.now).1 none
    refine ⟨e, hhash, hpending.trans (l.pending_checked call view), hrecord.trans ?_⟩
    by_cases hdata : data = []
    · simp [hdata, hauxData, Encoded.produced]
    · simp [hdata, hauxData, Encoded.produced]

/-- A condition on the auxiliary view and the main stream of a call, if it gets that far. -/
def WhenEncoded (extension : Extension) (l : Ledger) (call : EncodeCall)
    (Q : Yuv420Frame → List UInt8 → Prop) : Prop :=
  ∀ view data k, l.encoder.acceptedView extension call = some view →
    call.main = .bitstream data k → Q view data

theorem whenEncoded_iff {Q : Yuv420Frame → List UInt8 → Prop}
    (h : l.encoder.acceptedView extension call = some view)
    (hmain : call.main = .bitstream data k) :
    l.WhenEncoded extension call Q ↔ Q view data := by
  refine ⟨fun hQ => hQ view data k h hmain, ?_⟩
  intro hQ view' data' k' h' hmain'
  rw [h, Option.some_inj] at h'
  rw [hmain, Encoded.bitstream.injEq] at hmain'
  rw [← h', ← hmain'.1]
  exact hQ

/-- A call that produces no main stream, not even an empty one, meets every such condition. -/
theorem whenEncoded_of_not {Q : Yuv420Frame → List UInt8 → Prop}
    (h : ∀ view data k, l.encoder.acceptedView extension call = some view →
      call.main ≠ .bitstream data k) : l.WhenEncoded extension call Q :=
  fun view data k hview hmain => absurd hmain (h view data k hview)

/-! ### The view the decoder has -/

/-- The remembered hash is that of the auxiliary view the decoder has, and no view was left out as
unchanged that is not this one. -/
def AuxHashKept (l : Ledger) : Prop :=
  l.encoder.lastAuxHash = l.shown.map hashYuv420 ∧ l.stale = false
  deriving Decidable

/-- An auxiliary stream encoded beside an empty main stream is of a view with the remembered hash,
and no other view than the one the decoder has is taken for it because their hashes collide. -/
def KeepsAuxHash (extension : Extension) (l : Ledger) : EncoderInput → Prop
  | .encode call => l.WhenEncoded extension call fun view data =>
      (data = [] → l.sends call view = true → call.aux.produced ≠ [] →
        l.encoder.lastAuxHash = some (hashYuv420 view)) ∧
      (data ≠ [] → (l.encoder.shouldForceIdr call.now).2.precheck = .compareContentHash →
        l.encoder.lastAuxHash = some (hashYuv420 view) → l.shown = some view)
  | _ => True

/-- The view is left out after a comparison exactly if its hash is the remembered one. -/
theorem sends_compare
    (h : (l.encoder.shouldForceIdr call.now).2.precheck = .compareContentHash) :
    l.sends call view = false ↔ l.encoder.lastAuxHash = some (hashYuv420 view) := by
  rw [sends, Avc444Encoder.shouldSendAux_compare h, Avc444Encoder.lastAuxHash_shouldForceIdr]

theorem auxHashKept_omitted (hl : l.AuxHashKept)
    (h : l.encoder.acceptedView extension call = some view)
    (hmain : call.main = .bitstream data k) (hsend : l.sends call view = false) :
    (l.encode extension call).AuxHashKept ↔ l.KeepsAuxHash extension (.encode call) := by
  obtain ⟨hhash, hstale⟩ := hl
  obtain ⟨e, hehash, -, hencode⟩ := encode_omitted h hmain hsend
  rw [KeepsAuxHash, whenEncoded_iff h hmain, hencode]
  by_cases hdata : data = []
  · rw [if_pos hdata]
    refine iff_of_true ⟨hehash.trans hhash, hstale⟩ ⟨?_, fun hne => absurd hdata hne⟩
    intro _ hsent
    rw [hsend] at hsent
    cases hsent
  · rw [if_neg hdata]
    constructor
    · rintro ⟨-, hfresh⟩
      refine ⟨fun hnil => absurd hnil hdata, fun _ hcompare _ => ?_⟩
      simpa [hcompare, hstale] using hfresh
    · rintro ⟨-, hsame⟩
      refine ⟨hehash.trans hhash, ?_⟩
      simp only [hstale, Bool.false_or, Bool.and_eq_false_iff, decide_eq_false_iff_not, not_not]
      by_cases hcompare : (l.encoder.shouldForceIdr call.now).2.precheck = .compareContentHash
      · exact Or.inr (hsame hdata hcompare ((sends_compare hcompare).mp hsend))
      · exact Or.inl hcompare

theorem auxHashKept_sent (hl : l.AuxHashKept)
    (h : l.encoder.acceptedView extension call = some view)
    (hmain : call.main = .bitstream data k) (hsend : l.sends call view = true) :
    (l.encode extension call).AuxHashKept ↔ l.KeepsAuxHash extension (.encode call) := by
  obtain ⟨hhash, hstale⟩ := hl
  rw [KeepsAuxHash, whenEncoded_iff h hmain]
  -- an encoded view was not left out, so there is nothing to ask of the comparison
  have hsame : data ≠ [] →
      (l.encoder.shouldForceIdr call.now).2.precheck = .compareContentHash →
      l.encoder.lastAuxHash = some (hashYuv420 view) → l.shown = some view := by
    intro _ hcompare hlast
    rw [(sends_compare hcompare).mpr hlast] at hsend
    cases hsend
  rw [and_iff_left hsame]
  cases haux : call.aux with
  | failed message =>
    obtain ⟨e, hehash, -, hencode⟩ := encode_aux_failed h hmain haux hsend
    rw [hencode]
    exact iff_of_true ⟨hehash.trans hhash, hstale⟩ fun _ _ hne => absurd rfl hne
  | bitstream auxData auxKeyframe =>
    obtain ⟨e, hehash, -, hencode⟩ := encode_aux h hmain haux hsend
    rw [hencode]
    by_cases hauxData : auxData = []
    · rw [if_pos hauxData] at hehash
      have hnil : (Encoded.bitstream auxData auxKeyframe).produced = [] := if_pos hauxData
      refine iff_of_true ?_ fun _ _ hne => absurd hnil hne
      by_cases hdata : data = []
      · rw [if_pos hdata]
        exact ⟨hehash.trans hhash, hstale⟩
      · rw [if_neg hdata, if_pos hauxData]
        exact ⟨hehash.trans hhash, hstale⟩
    · rw [if_neg hauxData] at hehash
      have hne : (Encoded.bitstream auxData auxKeyframe).produced ≠ [] := by
        rw [Encoded.produced, if_neg hauxData]
        exact List.cons_ne_nil _ _
      by_cases hdata : data = []
      · rw [if_pos hdata, AuxHashKept]
        constructor
        · rintro ⟨hkept, -⟩ _ _ _
          exact hhash.trans (hkept.symm.trans hehash)
        · intro hlast
          exact ⟨hehash.trans ((hlast hdata hsend hne).symm.trans hhash), hstale⟩
      · rw [if_neg hdata, if_neg hauxData]
        exact iff_of_true ⟨hehash, hstale⟩ fun hnil => absurd hnil hdata

/-- One call keeps the hash exactly under the condition. -/
theorem auxHashKept_encode (hl : l.AuxHashKept) :
    (l.encode extension call).AuxHashKept ↔ l.KeepsAuxHash extension (.encode call) := by
  cases h : l.encoder.acceptedView extension call with
  | none =>
    rw [encode_refused h]
    refine iff_of_true hl (whenEncoded_of_not ?_)
    intro view data k h'
    rw [h] at h'
    cases h'
  | some view =>
    cases hmain : call.main with
    | failed message =>
      rw [encode_failed h hmain]
      refine iff_of_true ⟨?_, hl.2⟩ (whenEncoded_of_not ?_)
      · exact (Avc444Encoder.lastAuxHash_shouldForceIdr _ _).trans hl.1
      · intro _ data k _
        rw [hmain]
        exact Encoded.noConfusion
    | bitstream data k =>
      cases hsend : l.sends call view with
      | false => exact auxHashKept_omitted hl h hmain hsend
      | true => exact auxHashKept_sent hl h hmain hsend

theorem auxHashKept_step (hl : l.AuxHashKept) (input : EncoderInput) :
    (l.step extension input).AuxHashKept ↔ l.KeepsAuxHash extension input := by
  cases input with
  | encode call => exact auxHashKept_encode hl
  | requestIdr => exact iff_of_true hl trivial
  | configureAuxOmission enable maxInterval => exact iff_of_true hl trivial
  | configurePeriodicIdr intervalSecs now => exact iff_of_true hl trivial

/-! ### What the decoder is given -/

/-- What was produced is what was returned, and a refresh not yet returned is still pending. -/
def AllReturned (l : Ledger) : Prop :=
  l.produced = l.returned ∧ (l.owed = true → l.encoder.pending = true)
  deriving Decidable

/-- The second encode does not fail after a main stream, gives nothing beside an empty one, and for
a refresh both give something. -/
def ReturnsProduced (extension : Extension) (l : Ledger) : EncoderInput → Prop
  | .encode call => l.WhenEncoded extension call fun view data => l.sends call view = true →
      (data ≠ [] → ∀ message, call.aux ≠ .failed message) ∧
      (data = [] → call.aux.produced = []) ∧
      ((l.encoder.pending || l.encoder.isPeriodicIdrDue call.now) = true →
        data ≠ [] ∧ call.aux.produced ≠ [])
  | _ => True

/-- The invariant of a run: a refresh is pending exactly while it is owed. -/
def Balanced (l : Ledger) : Prop :=
  l.produced = l.returned ∧ l.owed = l.encoder.pending

theorem Balanced.allReturned (hl : l.Balanced) : l.AllReturned := by
  refine ⟨hl.1, fun howed => ?_⟩
  rw [← hl.2]
  exact howed

/-- A refresh is owed after the first check if one was pending or is due. -/
theorem Balanced.owed_due (hl : l.Balanced) :
    (l.owed || (l.encoder.shouldForceIdr call.now).1) =
      (l.encoder.pending || l.encoder.isPeriodicIdrDue call.now) := by
  rw [hl.2, Avc444Encoder.shouldForceIdr_fst]

/-- With no auxiliary view encoded there is no refresh. -/
theorem not_due_of_omitted (hsend : l.sends call view = false) :
    (l.encoder.pending || l.encoder.isPeriodicIdrDue call.now) = false := by
  rw [← Avc444Encoder.shouldForceIdr_fst,
    ← (Avc444Encoder.pending_shouldForceIdr l.encoder call.now).2]
  cases hforce : (l.encoder.shouldForceIdr call.now).2.forceAuxOnNextFrame with
  | false => rfl
  | true =>
    rw [sends, Avc444Encoder.shouldSendAux_forced hforce] at hsend
    cases hsend

theorem balanced_omitted (hl : l.Balanced) (h : l.encoder.acceptedView extension call = some view)
    (hmain : call.main = .bitstream data k) (hsend : l.sends call view = false) :
    (l.encode extension call).Balanced := by
  obtain ⟨e, -, hpending, hencode⟩ := encode_omitted h hmain hsend
  have howed : (l.owed || (l.encoder.shouldForceIdr call.now).1) = e.pending := by
    rw [hl.owed_due, not_due_of_omitted hsend, hpending]
  rw [hencode]
  by_cases hdata : data = []
  · rw [if_pos hdata]
    exact ⟨hl.1, howed⟩
  · rw [if_neg hdata]
    exact ⟨congrArg (· ++ [data]) hl.1, howed⟩

/-- After an encode of the auxiliary view nothing is pending: what is owed then was dropped. -/
theorem balanced_sent (hl : l.Balanced) (h : l.encoder.acceptedView extension call = some view)
    (hmain : call.main = .bitstream data k) (hsend : l.sends call view = true)
    (hreturns : l.ReturnsProduced extension (.encode call)) :
    (l.encode extension call).Balanced := by
  rw [ReturnsProduced, whenEncoded_iff h hmain] at hreturns
  obtain ⟨hok, hnil, hdue⟩ := hreturns hsend
  rw [← hl.owed_due] at hdue
  cases haux : call.aux with
  | failed message =>
    have hdata : data = [] := by
      by_contra hne
      exact hok hne message haux
    have howed : (l.owed || (l.encoder.shouldForceIdr call.now).1) = false :=
      Bool.eq_false_iff.mpr fun hdue' => (hdue hdue').1 hdata
    obtain ⟨e, -, hpending, hencode⟩ := encode_aux_failed h hmain haux hsend
    rw [hencode, hmain, hdata]
    refine ⟨?_, howed.trans hpending.symm⟩
    show l.produced ++ [] = l.returned
    rw [List.append_nil, hl.1]
  | bitstream auxData auxKeyframe =>
    obtain ⟨e, -, hpending, hencode⟩ := encode_aux h hmain haux hsend
    rw [hencode]
    by_cases hdata : data = []
    · have howed : (l.owed || (l.encoder.shouldForceIdr call.now).1) = false :=
        Bool.eq_false_iff.mpr fun hdue' => (hdue hdue').1 hdata
      rw [if_pos hdata, hnil hdata, List.append_nil]
      exact ⟨hl.1, howed.trans hpending.symm⟩
    · rw [if_neg hdata]
      refine ⟨congrArg (· ++ data :: call.aux.produced) hl.1, ?_⟩
      show ((l.owed || (l.encoder.shouldForceIdr call.now).1) && decide (auxData = [])) = e.pending
      rw [hpending, Bool.and_eq_false_iff, decide_eq_false_iff_not, or_iff_not_imp_left]
      intro howed hauxData
      refine (hdue (Bool.not_eq_false _ ▸ howed)).2 ?_
      rw [haux, Encoded.produced, if_pos hauxData]

theorem balanced_encode (hl : l.Balanced)
    (hreturns : l.ReturnsProduced extension (.encode call)) :
    (l.encode extension call).Balanced := by
  cases h : l.encoder.acceptedView extension call with
  | none =>
    rw [encode_refused h]
    exact hl
  | some view =>
    cases hmain : call.main with
    | failed message =>
      rw [encode_failed h hmain]
      refine ⟨hl.1, ?_⟩
      obtain ⟨hnext, hforce⟩ := Avc444Encoder.pending_shouldForceIdr l.encoder call.now
      show (l.owed || _) = (_ || _)
      rw [hnext, hforce, Bool.false_or, hl.2]
    | bitstream data k =>
      cases hsend : l.sends call view with
      | false => exact balanced_omitted hl h hmain hsend
      | true => exact balanced_sent hl h hmain hsend hreturns

/-- A call after which the property holds meets the condition. -/
theorem returnsProduced_of_encode (hl : l.Balanced)
    (hall : (l.encode extension call).AllReturned) :
    l.ReturnsProduced extension (.encode call) := by
  intro view data k h hmain hsend
  rw [← hl.owed_due]
  cases haux : call.aux with
  | failed message =>
    obtain ⟨e, -, hpending, hencode⟩ := encode_aux_failed h hmain haux hsend
    rw [hencode] at hall
    obtain ⟨hproduced, howed⟩ := hall
    have hdata : data = [] := by
      by_contra hne
      have hlength : (l.produced ++ call.main.produced).length = l.returned.length :=
        congrArg List.length hproduced
      rw [hl.1, hmain, Encoded.produced, if_neg hne, List.length_append, List.length_singleton]
        at hlength
      omega
    refine ⟨fun hne => absurd hdata hne, fun _ => rfl, fun hdue => ?_⟩
    have hlost : e.pending = true := howed hdue
    rw [hpending] at hlost
    cases hlost
  | bitstream auxData auxKeyframe =>
    obtain ⟨e, -, hpending, hencode⟩ := encode_aux h hmain haux hsend
    rw [hencode] at hall
    by_cases hdata : data = []
    · rw [if_pos hdata] at hall
      obtain ⟨hproduced, howed⟩ := hall
      refine ⟨fun hne => absurd hdata hne, fun _ => ?_, fun hdue => ?_⟩
      · have hsame : l.produced ++ call.aux.produced = l.returned := hproduced
        rw [← haux]
        exact List.append_right_eq_self.mp (hsame.trans hl.1.symm)
      · have hlost : e.pending = true := howed hdue
        rw [hpending] at hlost
        cases hlost
    · rw [if_neg hdata] at hall
      obtain ⟨-, howed⟩ := hall
      refine ⟨fun _ message => Encoded.noConfusion, fun hnil => absurd hnil hdata, fun hdue => ?_⟩
      refine ⟨hdata, fun hnil => ?_⟩
      have hauxData : auxData = [] := by
        by_contra hne
        rw [Encoded.produced, if_neg hne] at hnil
        cases hnil
      have hlost : e.pending = true := by
        refine howed ?_
        show ((l.owed || (l.encoder.shouldForceIdr call.now).1) && decide (auxData = [])) = true
        rw [hdue, hauxData]
        rfl
      rw [hpending] at hlost
      cases hlost

theorem balanced_step (hl : l.Balanced) (input : EncoderInput)
    (hreturns : l.ReturnsProduced extension input) : (l.step extension input).Balanced := by
  cases input with
  | encode call => exact balanced_encode hl hreturns
  | requestIdr => exact ⟨hl.1, rfl⟩
  | configureAuxOmission enable maxInterval => exact hl
  | configurePeriodicIdr intervalSecs now => exact hl

theorem returnsProduced_of_step (hl : l.Balanced) (input : EncoderInput)
    (hall : (l.step extension input).AllReturned) : l.ReturnsProduced extension input := by
  cases input with
  | encode call => exact returnsProduced_of_encode hl hall
  | requestIdr => trivial
  | configureAuxOmission enable maxInterval => trivial
  | configurePeriodicIdr intervalSecs now => trivial

end Ledger

/-- **The remembered hash.** Over a run, it is that of the auxiliary view last returned, and only
that view is left out as unchanged, exactly if no auxiliary stream is encoded beside an empty main
stream (unless its view has the hash already) and no hashes collide. -/
theorem auxHash_iff (extension : Extension) (colorMatrix : ColorMatrix) (now : Instant)
    (inputs : List EncoderInput) :
    (avc444Machine extension).Always Ledger.AuxHashKept (.start colorMatrix now) inputs ↔
      (avc444Machine extension).Along (Ledger.KeepsAuxHash extension) (.start colorMatrix now)
        inputs := by
  refine Machine.always_iff_along (I := Ledger.AuxHashKept) ?_ ?_ ?_ ⟨rfl, rfl⟩
  · intro l input hl hkeeps
    exact (Ledger.auxHashKept_step hl input).mpr hkeeps
  · intro l hl
    exact hl
  · intro l input hl hnot hkept
    exact hnot ((Ledger.auxHashKept_step hl input).mp hkept)

/-- A black picture of two by two pixels, with what the shared encoder makes of it. -/
def blackCall (main aux : Encoded) : EncodeCall :=
  ⟨List.replicate 16 0, 2, 2, 0, 0, main, aux⟩

/-- The main stream is skipped and the auxiliary stream is not: it is dropped, and remembered. -/
theorem skipped_main_remembered :
    ¬ (avc444Machine .none).Always Ledger.AuxHashKept (.start .bt709 0)
      [.encode (blackCall (.bitstream [] false) (.bitstream [0, 0, 1, 1] false))] := by
  rintro ⟨-, hkept, -⟩
  revert hkept
  decide +kernel

/-- **What is encoded is sent.** Over a run, the streams returned are those produced and a refresh
stays pending until it is returned, exactly if each auxiliary view that is encoded succeeds after a
main stream, gives nothing beside an empty one, and for a refresh neither stream is empty. -/
theorem produced_returned_iff (extension : Extension) (colorMatrix : ColorMatrix) (now : Instant)
    (inputs : List EncoderInput) :
    (avc444Machine extension).Always Ledger.AllReturned (.start colorMatrix now) inputs ↔
      (avc444Machine extension).Along (Ledger.ReturnsProduced extension) (.start colorMatrix now)
        inputs := by
  refine Machine.always_iff_along (I := Ledger.Balanced) ?_ ?_ ?_ ⟨rfl, rfl⟩
  · intro l input hl hreturns
    exact Ledger.balanced_step hl input hreturns
  · intro l hl
    exact hl.allReturned
  · intro l input hl hnot hall
    exact hnot (Ledger.returnsProduced_of_step hl input hall)

/-- The main view is encoded, the auxiliary view fails: the main stream is dropped. -/
theorem failed_aux_drops_main :
    ¬ (avc444Machine .none).Always Ledger.AllReturned (.start .bt709 0)
      [.encode (blackCall (.bitstream [0, 0, 1, 1] false) (.failed "out of memory"))] := by
  rintro ⟨-, hall, -⟩
  revert hall
  decide +kernel

end Graphics

end Cheirizo
