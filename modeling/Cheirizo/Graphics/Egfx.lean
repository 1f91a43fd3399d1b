import Cheirizo.Lib.Machine
import Cheirizo.Graphics.Damage

/-!
# The EGFX path of the display loop

`server/display_handler.rs`. A captured frame is compared with the one before it, unless a full
frame is forced; the latency governor may put it off; the encoder may fail or give nothing; and
sending may fail. The detector has moved on before any of this is known, and does not move at all
when a full frame is forced.

## What is not modelled

The governor works on floating-point ratios and elapsed time: each capture comes with its decision.
So do the encoder's answer, the state of its refresh timer, and whether sending succeeds.

## Main definitions

* `Egfx.process` — one captured frame
* `Screen` — the path, with the image the client has and the damage that was not sent

## Main results

* `undamaged_shown` — when a frame without damage is what the client already has
* `deferred_covered` — when a frame is sent with all the damage that was put off
-/

namespace Cheirizo

namespace Graphics

/-! ### Data -/

/-- A captured frame, without padding between its rows. -/
structure VideoFrame where
  data : List UInt8
  width : ℕ
  height : ℕ
  deriving DecidableEq, Repr

/-- The encoder that is in use. -/
inductive VideoEncoder where
  | avc420
  | avc444
  | hardware
  deriving DecidableEq, Repr

/-- What is made of a frame, by the damage it has. -/
inductive EncodingDecision where
  | encodeNow
  | encodeKeepalive
  | encodeBatch
  | encodeTimeout
  | skip
  | waitForMore
  deriving DecidableEq, Repr

/-- What an encoder answers. -/
inductive EncodeResult where
  | frame (payloadLen : ℕ)
  | noOutput
  | error
  deriving DecidableEq, Repr

/-- A captured frame with what the rest of the program makes of it. -/
structure Capture where
  frame : VideoFrame
  /-- The AVC444 encoder's timer, if it is in use. -/
  periodicIdrDue : Bool
  decision : EncodingDecision
  encodeResult : EncodeResult
  sendOk : Bool
  /-- Whether a software encoder can be created after the hardware fails. -/
  fallbackOk : Bool
  deriving DecidableEq, Repr

/-- The part of the display loop that sends pictures over EGFX. -/
structure Egfx where
  detector : Option DamageDetector
  encoder : Option VideoEncoder
  sender : Bool
  forceFirstFrame : Bool
  size : UInt16 × UInt16
  running : Bool

/-- What became of a frame: the regions the detector reported, if it was asked, and those it was
sent with, if it was. -/
structure Processed where
  egfx : Egfx
  reported : Option (List DamageRegion)
  sent : Option (List DamageRegion)

/-! ### One frame -/

namespace VideoFrame

/-- All of the frame. -/
def full (frame : VideoFrame) : List DamageRegion := [.fullFrame frame.width frame.height]

theorem full_ne_nil (frame : VideoFrame) : frame.full ≠ [] := List.cons_ne_nil _ _

end VideoFrame

/-- The regions to encode, unless the frame is put off. A flush without damage of its own refreshes
everything, since the damage may be that of an earlier frame. -/
def plannedRegions (c : Capture) (regions : List DamageRegion) : Option (List DamageRegion) :=
  match c.decision with
  | .skip | .waitForMore => none
  | .encodeNow => if regions = [] then none else some regions
  | .encodeKeepalive | .encodeBatch | .encodeTimeout =>
    if regions = [] then some c.frame.full else some regions

namespace Egfx

/-- There is no encoder yet. -/
def start (config : Option DamageConfig) (size : UInt16 × UInt16) : Egfx :=
  ⟨config.map .new, none, false, false, size, true⟩

/-- The encoder, if the frame is of the committed size, the path is set up, and the buffer is not
too small. -/
def accepts (s : Egfx) (c : Capture) : Option VideoEncoder :=
  if s.running = false ∨ (c.frame.width, c.frame.height) ≠ (s.size.1.toNat, s.size.2.toNat) then
    none
  else if s.sender = false then none
  else if c.frame.data.length < c.frame.width * c.frame.height * 4 % 2 ^ 32 then none
  else s.encoder

/-- A full frame is due, and the detector is passed over. -/
def forcesFullFrame (s : Egfx) (encoder : VideoEncoder) (c : Capture) : Bool :=
  (encoder = .avc444 && c.periodicIdrDue) || s.forceFirstFrame

/-- Give up the hardware encoder, if there is a software one. -/
def fallBack (s : Egfx) (c : Capture) : Egfx :=
  if c.fallbackOk then { s with encoder := some .avc420, forceFirstFrame := true } else s

/-- Encode and send: the regions the frame was sent with. -/
def encodeAndSend (s : Egfx) (encoder : VideoEncoder) (c : Capture) (regions : List DamageRegion) :
    Egfx × Option (List DamageRegion) :=
  match c.encodeResult with
  | .frame payloadLen =>
    if encoder = .hardware ∧ payloadLen = 0 then (s.fallBack c, none)
    else if c.sendOk then (s, some regions)
    else if encoder = .hardware then (s.fallBack c, none)
    else (s, none)
  | .noOutput | .error => if encoder = .hardware then (s.fallBack c, none) else (s, none)

/-- A frame with regions that are worth sending is encoded and sent. -/
def finish (s : Egfx) (encoder : VideoEncoder) (c : Capture) (reported : Option (List DamageRegion))
    (regions : List DamageRegion) : Processed :=
  match plannedRegions c regions with
  | none => ⟨s, reported, none⟩
  | some regions =>
    let result := s.encodeAndSend encoder c regions
    ⟨result.1, reported, result.2⟩

/-- Without an encoder and a sender nothing comes of a frame. -/
def process (s : Egfx) (c : Capture) : Processed :=
  match s.accepts c with
  | none => ⟨s, none, none⟩
  | some encoder =>
    let next := { s with forceFirstFrame := false }
    if s.forcesFullFrame encoder c then next.finish encoder c none c.frame.full
    else
      match s.detector with
      | none => next.finish encoder c none c.frame.full
      | some detector =>
        match detector.detect c.frame.data c.frame.width c.frame.height with
        | none => ⟨{ next with running := false }, none, none⟩
        | some (regions, detector) =>
          { next with detector := some detector }.finish encoder c (some regions) regions

/-- The path is set up for a client, as far as this succeeds. -/
def initialise (s : Egfx) (encoder : Option VideoEncoder) (connected : Bool) : Egfx :=
  { s with
    detector := s.detector.map .invalidate
    encoder
    sender := encoder.isSome && connected
    forceFirstFrame := (encoder.isSome && connected) || s.forceFirstFrame }

/-- A resize is committed. -/
def resize (s : Egfx) (size : UInt16 × UInt16) : Egfx :=
  { s with
    detector := s.detector.map .invalidate
    encoder := none
    sender := false
    forceFirstFrame := true
    size }

/-- The path is torn down for a reset of the core graphics. -/
def coreGraphicsReset (s : Egfx) (forced : Bool) : Egfx :=
  { s with encoder := none, sender := false, forceFirstFrame := forced || s.forceFirstFrame }

end Egfx

/-! ### Runs -/

/-- What happens to this part of the loop. -/
inductive EgfxInput where
  | capture (c : Capture)
  | initialise (encoder : Option VideoEncoder) (connected : Bool)
  | resize (size : UInt16 × UInt16)
  | coreGraphicsReset (forced : Bool)

/-- The path, with the image last sent to the client on its surface, and the regions reported since
then. -/
structure Screen where
  egfx : Egfx
  shown : Option (List UInt8)
  owed : List DamageRegion

namespace Screen

/-- Nothing is on the screen, and nothing is owed to it. -/
def start (config : Option DamageConfig) (size : UInt16 × UInt16) : Screen :=
  ⟨.start config size, none, []⟩

/-- A frame that is sent is the whole picture, and settles what was owed. One that is not leaves its
damage owed. -/
def capture (s : Screen) (c : Capture) : Screen :=
  let processed := s.egfx.process c
  match processed.sent with
  | some _ => ⟨processed.egfx, some c.frame.data, []⟩
  | none => ⟨processed.egfx, s.shown, s.owed ++ processed.reported.getD []⟩

/-- An encoder that is set up, and a resize, leave a screen that shows nothing. -/
def step (s : Screen) : EgfxInput → Screen
  | .capture c => s.capture c
  | .initialise encoder connected =>
    ⟨s.egfx.initialise encoder connected, none, s.owed⟩
  | .resize size => ⟨s.egfx.resize size, none, s.owed⟩
  | .coreGraphicsReset forced => { s with egfx := s.egfx.coreGraphicsReset forced }

end Screen

/-- The path as a machine that sends frames, each with its regions. -/
def egfxMachine : Machine Screen EgfxInput (VideoFrame × List DamageRegion) where
  step s input := (s.step input,
    match input with
    | .capture c => ((s.egfx.process c).sent.map fun regions => (c.frame, regions)).toList
    | _ => [])

/-! ### What is sent -/

/-- The encoder gives a frame, and it is sent. -/
def Capture.delivers (c : Capture) (encoder : VideoEncoder) : Bool :=
  match c.encodeResult with
  | .frame payloadLen => !(encoder = .hardware && payloadLen = 0) && c.sendOk
  | _ => false

/-- The governor puts the frame off. -/
def Capture.postponed (c : Capture) : Bool :=
  c.decision = .skip || c.decision = .waitForMore

theorem plannedRegions_of_ne_nil {c : Capture} {regions : List DamageRegion} (h : regions ≠ []) :
    plannedRegions c regions = if c.postponed then none else some regions := by
  rw [plannedRegions, Capture.postponed]
  cases c.decision <;> simp [h]

/-- A flush without damage is of the full frame. -/
theorem plannedRegions_nil {c : Capture} {regions : List DamageRegion}
    (h : plannedRegions c [] = some regions) : regions = c.frame.full := by
  rw [plannedRegions] at h
  cases hdecision : c.decision <;> rw [hdecision] at h <;> simp_all

namespace Egfx

variable {s : Egfx} {c : Capture} {encoder : VideoEncoder}

theorem encodeAndSend_snd (s : Egfx) (encoder : VideoEncoder) (c : Capture)
    (regions : List DamageRegion) :
    (s.encodeAndSend encoder c regions).2 = if c.delivers encoder then some regions else none := by
  rw [encodeAndSend, Capture.delivers]
  cases c.encodeResult with
  | frame payloadLen =>
    dsimp only
    split_ifs <;> simp_all
  | noOutput =>
    dsimp only
    split_ifs <;> simp_all
  | error =>
    dsimp only
    split_ifs <;> simp_all

/-- Whatever the encoder does, the detector and the size stay. -/
theorem encodeAndSend_fst (s : Egfx) (encoder : VideoEncoder) (c : Capture)
    (regions : List DamageRegion) :
    (s.encodeAndSend encoder c regions).1.detector = s.detector ∧
      (s.encodeAndSend encoder c regions).1.size = s.size := by
  have hback : (s.fallBack c).detector = s.detector ∧ (s.fallBack c).size = s.size := by
    rw [fallBack]
    split
    · exact ⟨rfl, rfl⟩
    · exact ⟨rfl, rfl⟩
  rw [encodeAndSend]
  split <;> split_ifs <;> first | exact hback | exact ⟨rfl, rfl⟩

theorem finish_sent (s : Egfx) (encoder : VideoEncoder) (c : Capture)
    (reported : Option (List DamageRegion)) (regions : List DamageRegion) :
    (s.finish encoder c reported regions).sent =
      if c.delivers encoder then plannedRegions c regions else none := by
  rw [finish]
  cases plannedRegions c regions with
  | none => exact (ite_self _).symm
  | some planned => exact s.encodeAndSend_snd encoder c planned

theorem finish_reported (s : Egfx) (encoder : VideoEncoder) (c : Capture)
    (reported : Option (List DamageRegion)) (regions : List DamageRegion) :
    (s.finish encoder c reported regions).reported = reported := by
  rw [finish]
  cases plannedRegions c regions <;> rfl

theorem finish_egfx (s : Egfx) (encoder : VideoEncoder) (c : Capture)
    (reported : Option (List DamageRegion)) (regions : List DamageRegion) :
    (s.finish encoder c reported regions).egfx.detector = s.detector ∧
      (s.finish encoder c reported regions).egfx.size = s.size := by
  rw [finish]
  cases plannedRegions c regions with
  | none => exact ⟨rfl, rfl⟩
  | some planned => exact s.encodeAndSend_fst encoder c planned

/-- A full frame is sent unless it is put off or fails. -/
theorem finish_full_sent (s : Egfx) (encoder : VideoEncoder) (c : Capture)
    (reported : Option (List DamageRegion)) :
    (s.finish encoder c reported c.frame.full).sent =
      if c.delivers encoder && !c.postponed then some c.frame.full else none := by
  rw [finish_sent, plannedRegions_of_ne_nil c.frame.full_ne_nil]
  cases c.delivers encoder <;> cases c.postponed <;> rfl

theorem accepts_size (h : s.accepts c = some encoder) :
    c.frame.width = s.size.1.toNat ∧ c.frame.height = s.size.2.toNat := by
  rw [accepts] at h
  split at h
  · cases h
  · rename_i hsize
    rw [not_or, not_not, Prod.mk.injEq] at hsize
    exact hsize.2

/-- Everything one frame can do to the path: it is not taken, it is taken as a full frame without
asking the detector, the detector panics, or the detector reports. -/
theorem process_cases (s : Egfx) (c : Capture) :
    (s.accepts c = none ∧ s.process c = ⟨s, none, none⟩) ∨
    ∃ encoder, s.accepts c = some encoder ∧
      (((s.forcesFullFrame encoder c = true ∨ s.detector = none) ∧
          s.process c = { s with forceFirstFrame := false }.finish encoder c none c.frame.full) ∨
        (s.forcesFullFrame encoder c = false ∧
          ∃ d, s.detector = some d ∧ d.detect c.frame.data c.frame.width c.frame.height = none ∧
            s.process c = ⟨{ s with forceFirstFrame := false, running := false }, none, none⟩) ∨
        (s.forcesFullFrame encoder c = false ∧
          ∃ d regions next, s.detector = some d ∧
            d.detect c.frame.data c.frame.width c.frame.height = some (regions, next) ∧
            s.process c =
              { s with forceFirstFrame := false, detector := some next }.finish encoder c
                (some regions) regions)) := by
  rw [process]
  cases haccepts : s.accepts c with
  | none => exact Or.inl ⟨rfl, rfl⟩
  | some encoder =>
    refine Or.inr ⟨encoder, rfl, ?_⟩
    dsimp only
    cases hforced : s.forcesFullFrame encoder c with
    | true => exact Or.inl ⟨Or.inl rfl, rfl⟩
    | false =>
      rw [if_neg Bool.false_ne_true]
      cases hdetector : s.detector with
      | none => exact Or.inl ⟨Or.inr rfl, rfl⟩
      | some d =>
        cases hdetect : d.detect c.frame.data c.frame.width c.frame.height with
        | none => exact Or.inr (Or.inl ⟨rfl, d, rfl, hdetect, by simp only [hdetect]⟩)
        | some report =>
          exact Or.inr (Or.inr ⟨rfl, d, report.1, report.2, rfl, hdetect, by simp only [hdetect]⟩)

end Egfx

/-! ### Damage that was put off -/

namespace Screen

variable {s : Screen} {c : Capture}

/-- A frame is sent with regions that have every pixel of the damage that was put off, as far as it
has the pixel at all. -/
def CoversOwed (s : Screen) : EgfxInput → Prop
  | .capture c => ∀ regions, (s.egfx.process c).sent = some regions →
      ∀ deferred ∈ s.owed, ∀ x y, deferred.contains x y = true → x < c.frame.width →
        y < c.frame.height → ∃ r ∈ regions, r.contains x y = true
  | _ => True

/-- While damage is put off, no frame goes out that the detector finds damage in by a comparison. -/
def RefreshesOwed (s : Screen) : EgfxInput → Prop
  | .capture c => ∀ encoder d prev, s.egfx.accepts c = some encoder →
      s.egfx.forcesFullFrame encoder c = false → s.egfx.detector = some d →
      d.reference c.frame.width c.frame.height = some prev →
      d.detectChanges prev c.frame.data c.frame.width c.frame.height ≠ [] →
      c.postponed = false → c.delivers encoder = true → s.owed = []
  | _ => True

theorem exists_full_contains {encoder : VideoEncoder} (h : s.egfx.accepts c = some encoder)
    {x y : ℕ} (hx : x < c.frame.width) (hy : y < c.frame.height) :
    ∃ r ∈ c.frame.full, r.contains x y = true := by
  obtain ⟨hwidth, hheight⟩ := Egfx.accepts_size h
  have hw := s.egfx.size.1.toNat_lt
  have hh := s.egfx.size.2.toNat_lt
  exact ⟨_, List.mem_singleton_self _,
    DamageRegion.contains_fullFrame (by omega) (by omega) hx hy⟩

theorem coversOwed_capture (h : s.RefreshesOwed (.capture c)) : s.CoversOwed (.capture c) := by
  intro regions hsent deferred hdeferred x y hcontains hx hy
  obtain ⟨-, hprocess⟩ | ⟨encoder, haccepts, ⟨-, hprocess⟩ | ⟨-, d, -, -, hprocess⟩ |
    ⟨hforced, d, report, next, hdetector, hdetect, hprocess⟩⟩ := s.egfx.process_cases c
  · rw [hprocess] at hsent
    cases hsent
  · -- a full frame
    rw [hprocess, Egfx.finish_full_sent] at hsent
    split at hsent
    · cases hsent
      exact exists_full_contains haccepts hx hy
    · cases hsent
  · rw [hprocess] at hsent
    cases hsent
  · -- a frame with the detector's report
    rw [hprocess, Egfx.finish_sent] at hsent
    split at hsent
    · rename_i hdelivers
      by_cases hreport : report = []
      · rw [hreport] at hsent
        rw [plannedRegions_nil hsent]
        exact exists_full_contains haccepts hx hy
      · rw [plannedRegions_of_ne_nil hreport] at hsent
        cases hpostponed : c.postponed with
        | true =>
          rw [hpostponed, if_pos rfl] at hsent
          cases hsent
        | false =>
          rw [hpostponed, if_neg Bool.false_ne_true, Option.some_inj] at hsent
          obtain ⟨-, hfull, -⟩ | ⟨prev, href, hchanges, -⟩ := DamageDetector.detect_report hdetect
          · rw [← hsent, hfull]
            exact exists_full_contains haccepts hx hy
          · rw [hchanges] at hreport
            rw [h encoder d prev haccepts hforced hdetector href hreport hpostponed hdelivers]
              at hdeferred
            cases hdeferred
    · cases hsent

end Screen

/-- **Deferred damage.** In a run in which, while damage is put off, no frame goes out that the
detector finds damage in by a comparison, every frame is sent with all the damage put off before
it. -/
theorem deferred_covered (config : Option DamageConfig) (size : UInt16 × UInt16)
    (inputs : List EgfxInput)
    (h : egfxMachine.Along Screen.RefreshesOwed (.start config size) inputs) :
    egfxMachine.Along Screen.CoversOwed (.start config size) inputs := by
  refine h.of_invariant (I := fun _ => True) (fun _ _ _ _ => trivial) ?_ trivial
  intro s input _ hrefreshes
  cases input with
  | capture c => exact Screen.coversOwed_capture hrefreshes
  | initialise encoder connected => trivial
  | resize size => trivial
  | coreGraphicsReset forced => trivial

/-- Tiles of one pixel, compared exactly. -/
def exactConfig : DamageConfig := ⟨1, fun _ => 0, 0, 0, 1⟩

/-- A frame in one row that is encoded and sent unless it is put off. -/
def rowCapture (data : List UInt8) (width : ℕ) (periodicIdrDue : Bool)
    (decision : EncodingDecision) : Capture :=
  ⟨⟨data, width, 1⟩, periodicIdrDue, decision, .frame 1, true, true⟩

/-- One black pixel. -/
def black : List UInt8 := [0, 0, 0, 0]

/-- One white pixel. -/
def white : List UInt8 := [255, 255, 255, 0]

/-- The left pixel changes and is put off, then a flush sends everything. -/
theorem left_pixel_flushed :
    egfxMachine.Along Screen.CoversOwed (.start (some exactConfig) (2, 1))
      [.initialise (some .avc444) true,
        .capture (rowCapture (black ++ black) 2 false .encodeNow),
        .capture (rowCapture (black ++ black) 2 false .encodeNow),
        .capture (rowCapture (white ++ black) 2 false .skip),
        .capture (rowCapture (white ++ black) 2 false .encodeTimeout)] := by
  refine deferred_covered _ _ _ ⟨trivial, ?_, ?_, ?_, ?_, trivial⟩
  · intro encoder d prev haccepts hforced
    cases encoder <;> cases hforced
  · intro encoder d prev haccepts hforced hdetector href
    rw [← Option.some_inj.mp hdetector] at href
    cases href
  · intro encoder d prev haccepts hforced hdetector href hchanges hpostponed
    cases hpostponed
  · intro encoder d prev haccepts hforced hdetector href hchanges
    obtain rfl := Option.some_inj.mp hdetector
    obtain rfl := Option.some_inj.mp href
    exact absurd (by decide +kernel) hchanges

/-- The left pixel changes and is put off, then the right one changes and is sent alone. -/
theorem left_pixel_lost :
    ¬ egfxMachine.Along Screen.CoversOwed (.start (some exactConfig) (2, 1))
      [.initialise (some .avc444) true,
        .capture (rowCapture (black ++ black) 2 false .encodeNow),
        .capture (rowCapture (black ++ black) 2 false .encodeNow),
        .capture (rowCapture (white ++ black) 2 false .skip),
        .capture (rowCapture (white ++ white) 2 false .encodeNow)] := by
  rintro ⟨-, -, -, -, h, -⟩
  obtain ⟨r, hr, hcontains⟩ := h [⟨1, 0, 1, 1⟩] (by decide +kernel) ⟨0, 0, 1, 1⟩ (by decide +kernel)
    0 0 (by decide) (by decide) (by decide)
  rw [List.mem_singleton] at hr
  rw [hr] at hcontains
  revert hcontains
  decide

/-! ### Frames without damage -/

namespace Screen

variable {s : Screen} {c : Capture}

/-- A frame that the detector reports no damage for is what the client has. -/
def ShowsUndamaged (s : Screen) : EgfxInput → Prop
  | .capture c => (s.egfx.process c).reported = some [] →
      ∃ image, s.shown = some image ∧ SamePicture image c.frame.data
  | _ => True

/-- Encoding and sending succeed. -/
def Succeeds (s : Screen) : EgfxInput → Prop
  | .capture c => ∀ encoder, s.egfx.accepts c = some encoder → c.delivers encoder = true
  | _ => True

/-- A full frame is forced only while the detector has nothing to compare with, or shows what it
would be compared with; frames with damage are not put off, and no tile is too small to be
reported. -/
def KeepsReference (s : Screen) : EgfxInput → Prop
  | .capture c => ∀ encoder d, s.egfx.accepts c = some encoder → s.egfx.detector = some d →
      if s.egfx.forcesFullFrame encoder c then
        ∀ prev, d.reference c.frame.width c.frame.height = some prev →
          SamePicture c.frame.data prev
      else
        d.config.Reports c.frame.width c.frame.height ∧
        ∀ regions next,
          d.detect c.frame.data c.frame.width c.frame.height = some (regions, next) →
          regions ≠ [] → c.postponed = false
  | _ => True

/-- The detector compares without thresholds, and what it compares with is what the client has. -/
structure InStep (s : Screen) : Prop where
  threshold : ∀ d, s.egfx.detector = some d →
    d.config.pixelThreshold = 0 ∧ ∀ n, d.config.diffThreshold n = 0
  reference : ∀ d width height prev, s.egfx.detector = some d →
    d.reference width height = some prev →
      (width, height) = (s.egfx.size.1.toNat, s.egfx.size.2.toNat) ∧ d.Gridded width height ∧
        prev.length = width * height * 4 ∧ ∃ image, s.shown = some image ∧ SamePicture image prev

theorem capture_egfx (s : Screen) (c : Capture) : (s.capture c).egfx = (s.egfx.process c).egfx := by
  unfold capture
  cases hsent : (s.egfx.process c).sent <;> simp only [hsent]

theorem capture_shown (s : Screen) (c : Capture) :
    (s.capture c).shown =
      if (s.egfx.process c).sent = none then s.shown else some c.frame.data := by
  unfold capture
  cases hsent : (s.egfx.process c).sent <;> simp [hsent]

section Step

variable {encoder : VideoEncoder} {d next : DamageDetector} {regions : List DamageRegion}
  (hs : s.InStep) (hkeeps : s.KeepsReference (.capture c))
  (haccepts : s.egfx.accepts c = some encoder)
include hs hkeeps haccepts

/-- No damage means no difference to what the client has. -/
theorem exists_shown_of_undamaged (hforced : s.egfx.forcesFullFrame encoder c = false)
    (hdetector : s.egfx.detector = some d)
    (hdetect : d.detect c.frame.data c.frame.width c.frame.height = some ([], next)) :
    ∃ image, s.shown = some image ∧ SamePicture image c.frame.data := by
  have hcond := hkeeps encoder d haccepts hdetector
  rw [hforced, if_neg Bool.false_ne_true] at hcond
  obtain ⟨hlength, -, -⟩ := DamageDetector.reference_detect hdetect
  obtain ⟨-, hfull, -⟩ | ⟨prev, href, hchanges, -⟩ := DamageDetector.detect_report hdetect
  · cases hfull
  · obtain ⟨hsize, hgrid, hprev, image, hshown, hsame⟩ := hs.reference d _ _ prev hdetector href
    obtain ⟨hwidth, hheight⟩ := Egfx.accepts_size haccepts
    have hw := s.egfx.size.1.toNat_lt
    have hh := s.egfx.size.2.toNat_lt
    have harea : c.frame.width * c.frame.height < 2 ^ 32 := by
      have hmul : s.egfx.size.1.toNat * s.egfx.size.2.toNat < 2 ^ 16 * 2 ^ 16 :=
        Nat.mul_lt_mul'' hw hh
      rw [hwidth, hheight]
      omega
    have hsound := DamageDetector.detectChanges_sound hcond.1 hgrid (by omega) (by omega)
      (hs.threshold d hdetector).1 (hs.threshold d hdetector).2 harea hprev hlength hchanges.symm
    exact ⟨image, hshown, hsame.trans hsound⟩

/-- A full frame the detector does not see leaves it in step. -/
theorem inStep_full
    (hcause : s.egfx.forcesFullFrame encoder c = true ∨ s.egfx.detector = none)
    (hprocess : s.egfx.process c =
      { s.egfx with forceFirstFrame := false }.finish encoder c none c.frame.full) :
    (s.capture c).InStep := by
  obtain ⟨hdet, hsz⟩ := Egfx.finish_egfx { s.egfx with forceFirstFrame := false } encoder c none
    c.frame.full
  rw [← hprocess, ← capture_egfx] at hdet hsz
  constructor
  · intro d hd
    exact hs.threshold d (hdet.symm.trans hd)
  · intro d width height prev hd href
    have hd' : s.egfx.detector = some d := hdet.symm.trans hd
    obtain ⟨hsize, hgrid, hprev, image, hshown, hsame⟩ := hs.reference d width height prev hd' href
    rw [hsz]
    refine ⟨hsize, hgrid, hprev, ?_⟩
    rw [capture_shown]
    split
    · exact ⟨image, hshown, hsame⟩
    · obtain hforced | hnone := hcause
      · have hcond := hkeeps encoder d haccepts hd'
        rw [hforced, if_pos rfl] at hcond
        obtain ⟨hwidth, hheight⟩ := Egfx.accepts_size haccepts
        have hhere : d.reference c.frame.width c.frame.height = some prev := by
          rw [Prod.mk.injEq] at hsize
          rw [hwidth, hheight, ← hsize.1, ← hsize.2]
          exact href
        exact ⟨c.frame.data, rfl, hcond prev hhere⟩
      · rw [hnone] at hd'
        cases hd'

/-- A frame the detector sees becomes what the next one is compared with. -/
theorem inStep_detected (hsucceeds : c.delivers encoder = true)
    (hforced : s.egfx.forcesFullFrame encoder c = false) (hdetector : s.egfx.detector = some d)
    (hdetect : d.detect c.frame.data c.frame.width c.frame.height = some (regions, next))
    (hprocess : s.egfx.process c =
      { s.egfx with forceFirstFrame := false, detector := some next }.finish encoder c
        (some regions) regions) :
    (s.capture c).InStep := by
  obtain ⟨hdet, hsz⟩ := Egfx.finish_egfx
    { s.egfx with forceFirstFrame := false, detector := some next } encoder c (some regions) regions
  rw [← hprocess, ← capture_egfx] at hdet hsz
  obtain ⟨hlength, hconfig, hnext⟩ := DamageDetector.reference_detect hdetect
  have hsize := Egfx.accepts_size haccepts
  constructor
  · intro d' hd'
    cases hdet.symm.trans hd'
    rw [hconfig]
    exact hs.threshold d hdetector
  · intro d' width height prev hd' href
    cases hdet.symm.trans hd'
    obtain ⟨hdims, rfl⟩ := hnext width height prev href
    rw [Prod.mk.injEq] at hdims
    obtain ⟨rfl, rfl⟩ := hdims
    rw [hsz]
    refine ⟨Prod.ext hsize.1 hsize.2, ?_, hlength, ?_⟩
    · obtain ⟨-, -, hgrid⟩ | ⟨prev, hprev, -, hgrid⟩ := DamageDetector.detect_report hdetect
      · exact hgrid
      · exact hgrid (hs.reference d _ _ prev hdetector hprev).2.1
    · rw [capture_shown]
      split
      · -- it was not sent, so there was no damage
        rename_i hsent
        by_cases hregions : regions = []
        · rw [hregions] at hdetect
          exact exists_shown_of_undamaged hs hkeeps haccepts hforced hdetector hdetect
        · have hcond := hkeeps encoder d haccepts hdetector
          rw [hforced, if_neg Bool.false_ne_true] at hcond
          rw [hprocess, Egfx.finish_sent, hsucceeds, if_pos rfl, plannedRegions_of_ne_nil hregions,
            hcond.2 regions next hdetect hregions, if_neg Bool.false_ne_true] at hsent
          cases hsent
      · exact ⟨c.frame.data, rfl, SamePicture.refl _⟩

end Step

theorem inStep_capture (hs : s.InStep) (hsucceeds : s.Succeeds (.capture c))
    (hkeeps : s.KeepsReference (.capture c)) : (s.capture c).InStep := by
  obtain ⟨-, hprocess⟩ | ⟨encoder, haccepts, ⟨hcause, hprocess⟩ | ⟨-, d, -, -, hprocess⟩ |
    ⟨hforced, d, regions, next, hdetector, hdetect, hprocess⟩⟩ := s.egfx.process_cases c
  · have hsame : s.capture c = s := by
      rw [capture, hprocess]
      exact congrArg (Screen.mk s.egfx s.shown) (List.append_nil _)
    rw [hsame]
    exact hs
  · exact inStep_full hs hkeeps haccepts hcause hprocess
  · rw [capture, hprocess]
    exact ⟨hs.threshold, hs.reference⟩
  · exact inStep_detected hs hkeeps haccepts (hsucceeds encoder haccepts) hforced hdetector hdetect
      hprocess

theorem showsUndamaged_capture (hs : s.InStep) (hkeeps : s.KeepsReference (.capture c)) :
    s.ShowsUndamaged (.capture c) := by
  intro hreported
  obtain ⟨-, hprocess⟩ | ⟨encoder, haccepts, ⟨-, hprocess⟩ | ⟨-, d, -, -, hprocess⟩ |
    ⟨hforced, d, regions, next, hdetector, hdetect, hprocess⟩⟩ := s.egfx.process_cases c
  · rw [hprocess] at hreported
    cases hreported
  · rw [hprocess, Egfx.finish_reported] at hreported
    cases hreported
  · rw [hprocess] at hreported
    cases hreported
  · rw [hprocess, Egfx.finish_reported, Option.some_inj] at hreported
    rw [hreported] at hdetect
    exact exists_shown_of_undamaged hs hkeeps haccepts hforced hdetector hdetect

/-- An invalidated detector has nothing to compare with. -/
theorem InStep.of_invalidated (hs : s.InStep) {egfx : Egfx}
    (hegfx : egfx.detector = s.egfx.detector.map .invalidate) (shown : Option (List UInt8))
    (owed : List DamageRegion) : (⟨egfx, shown, owed⟩ : Screen).InStep := by
  have hinvalidated : ∀ d, egfx.detector = some d →
      ∃ d₀, s.egfx.detector = some d₀ ∧ d = d₀.invalidate := by
    intro d hd
    rw [hegfx, Option.map_eq_some_iff] at hd
    obtain ⟨d₀, hd₀, rfl⟩ := hd
    exact ⟨d₀, hd₀, rfl⟩
  constructor
  · intro d hd
    obtain ⟨d₀, hd₀, rfl⟩ := hinvalidated d hd
    exact hs.threshold d₀ hd₀
  · intro d width height prev hd href
    obtain ⟨d₀, -, rfl⟩ := hinvalidated d hd
    rw [DamageDetector.reference_invalidate] at href
    cases href

theorem inStep_step (hs : s.InStep) (input : EgfxInput) (hsucceeds : s.Succeeds input)
    (hkeeps : s.KeepsReference input) : (s.step input).InStep := by
  cases input with
  | capture c => exact inStep_capture hs hsucceeds hkeeps
  | initialise encoder connected => exact hs.of_invalidated rfl _ _
  | resize size => exact hs.of_invalidated rfl _ _
  | coreGraphicsReset forced => exact ⟨hs.threshold, hs.reference⟩

end Screen

/-- **Frames without damage.** Without thresholds, with encoding and sending always succeeding, and
with full frames forced, frames put off and regions left out only where this does not matter, a
frame that the detector reports no damage for is what the client already has. -/
theorem undamaged_shown (config : Option DamageConfig) (size : UInt16 × UInt16)
    (inputs : List EgfxInput)
    (hconfig : ∀ c, config = some c → c.pixelThreshold = 0 ∧ ∀ n, c.diffThreshold n = 0)
    (h : egfxMachine.Along (fun s input => s.Succeeds input ∧ s.KeepsReference input)
      (.start config size) inputs) :
    egfxMachine.Along Screen.ShowsUndamaged (.start config size) inputs := by
  have hstart : (Screen.start config size).InStep := by
    constructor
    · intro d hd
      obtain ⟨c, hc, rfl⟩ := Option.map_eq_some_iff.mp hd
      exact hconfig c hc
    · intro d width height prev hd href
      obtain ⟨c, -, rfl⟩ := Option.map_eq_some_iff.mp hd
      cases href
  refine h.of_invariant (I := Screen.InStep) ?_ ?_ hstart
  · intro s input hs hcond
    exact Screen.inStep_step hs input hcond.1 hcond.2
  · intro s input hs hcond
    cases input with
    | capture c => exact Screen.showsUndamaged_capture hs hcond.2
    | initialise encoder connected => trivial
    | resize size => trivial
    | coreGraphicsReset forced => trivial

/-- Black, and nothing changes. -/
theorem black_shown :
    egfxMachine.Along Screen.ShowsUndamaged (.start (some exactConfig) (1, 1))
      [.initialise (some .avc444) true,
        .capture (rowCapture black 1 false .encodeNow),
        .capture (rowCapture black 1 false .encodeNow),
        .capture (rowCapture black 1 false .encodeNow)] := by
  have hdelivers : ∀ encoder, (rowCapture black 1 false .encodeNow).delivers encoder = true := by
    intro encoder
    cases encoder <;> rfl
  have hreports : exactConfig.Reports 1 1 := by
    refine ⟨by decide, by decide, fun tx ty htx hty => ?_⟩
    have htx' : tx * 1 < 1 := htx
    have hty' : ty * 1 < 1 := hty
    obtain rfl : tx = 0 := by omega
    obtain rfl : ty = 0 := by omega
    decide
  refine undamaged_shown _ _ _ ?_ ⟨⟨trivial, trivial⟩, ⟨fun encoder _ => hdelivers encoder, ?_⟩,
    ⟨fun encoder _ => hdelivers encoder, ?_⟩, ⟨fun encoder _ => hdelivers encoder, ?_⟩, trivial⟩
  · intro c hc
    cases hc
    exact ⟨rfl, fun _ => rfl⟩
  · intro encoder d haccepts hdetector
    obtain rfl := Option.some_inj.mp hdetector
    cases encoder <;> exact fun prev href => by cases href
  · intro encoder d haccepts hdetector
    obtain rfl := Option.some_inj.mp hdetector
    cases encoder <;> exact ⟨hreports, fun _ _ _ _ => rfl⟩
  · intro encoder d haccepts hdetector
    obtain rfl := Option.some_inj.mp hdetector
    cases encoder <;> exact ⟨hreports, fun _ _ _ _ => rfl⟩

/-- Black, then white in a forced frame, then black again: no damage, and white is on the screen. -/
theorem black_not_repainted :
    egfxMachine.Along Screen.Succeeds (.start (some exactConfig) (1, 1))
      [.initialise (some .avc444) true,
        .capture (rowCapture black 1 false .encodeNow),
        .capture (rowCapture black 1 false .encodeNow),
        .capture (rowCapture white 1 true .encodeNow),
        .capture (rowCapture black 1 false .encodeNow)] ∧
    ¬ egfxMachine.Along Screen.ShowsUndamaged (.start (some exactConfig) (1, 1))
      [.initialise (some .avc444) true,
        .capture (rowCapture black 1 false .encodeNow),
        .capture (rowCapture black 1 false .encodeNow),
        .capture (rowCapture white 1 true .encodeNow),
        .capture (rowCapture black 1 false .encodeNow)] := by
  constructor
  · have hdelivers : ∀ data idr encoder,
        (rowCapture data 1 idr .encodeNow).delivers encoder = true := by
      intro data idr encoder
      cases encoder <;> rfl
    exact ⟨trivial, fun encoder _ => hdelivers black false encoder,
      fun encoder _ => hdelivers black false encoder, fun encoder _ => hdelivers white true encoder,
      fun encoder _ => hdelivers black false encoder, trivial⟩
  · rintro ⟨-, -, -, -, h, -⟩
    obtain ⟨image, hshown, hsame⟩ := h (by decide +kernel)
    have himage : image = white := by
      rw [← Option.some_inj, ← hshown]
      decide +kernel
    have hfirst := hsame 0 0 (by decide)
    rw [himage] at hfirst
    revert hfirst
    decide

end Graphics

end Cheirizo
