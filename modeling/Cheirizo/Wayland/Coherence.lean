import Cheirizo.Wayland.Screencopy

/-!
# Frames and the buffers they are copied into

A frame should be copied into a buffer with the parameters offered for it, and its pixels should be
taken from the buffer it was copied into. The client keeps no record of which buffer that was: it
takes a DMA-BUF whenever it has one. It also keeps a DMA-BUF across frames by its size alone, and
when it cannot allocate another it still has the one it meant to replace.

`BuffersFit` says when nothing comes of this. A DMA-BUF that is kept when the offers of a frame are
complete has to fit them: a buffer of the offered size has the offered format, and a buffer of
another size is replaced. And a DMA-BUF is still there, and can be mapped, only for frames with a
DMA-BUF offer in effect; without one the frame went to shared memory.

## Main definitions

* `InOrder` — the protocol's rules for the events of a frame
* `CoherentStep` — what is asked of a step
* `BuffersFit` — the condition on the state before the step

## Main results

* `Tracked.allocateAndCopy` — a frame is copied where it should be, exactly if the buffers fit
* `coherent_iff_buffersFit` — the same for every frame of a run, deliveries included
-/

namespace Cheirizo

namespace Wayland

/-! ### What is asked -/

/-- The buffer has the parameters offered for the frame. -/
def Frame.Offers (f : Frame) : FrameBuffer → Prop
  | .dmabuf buf => ∃ info, f.dmabufOffer = some info ∧
    buf.format = info.format ∧ buf.width = info.width ∧ buf.height = info.height
  | .shm buf => f.shmOffer = some buf.format

/-- A copy goes where the frame's offers say, and pixels come from where the frame was copied. -/
def Action.Coherent (frames : NodeId → Frame) : Action → Prop
  | .copy node buffer => (frames node).Offers buffer
  | .deliver node _ source _ => (frames node).copied = some source
  | _ => True

/-- Whatever the step asks fits what the frame offers. -/
def CoherentStep (w : Screencopy) (e : NodeId × ScreencopyEvent) : Prop :=
  ∀ a ∈ (w.step e).2, a.Coherent (w.offered e)

instance (f : Frame) : ∀ b, Decidable (f.Offers b)
  | .dmabuf buf => decidable_of_iff (∃ info ∈ f.dmabufOffer,
      buf.format = info.format ∧ buf.width = info.width ∧ buf.height = info.height) Iff.rfl
  | .shm buf => inferInstanceAs (Decidable (f.shmOffer = some buf.format))

instance (frames : NodeId → Frame) : ∀ a, Decidable (Action.Coherent frames a)
  | .captureOutput _ _ _ => isTrue trivial
  | .copy node buffer => inferInstanceAs (Decidable ((frames node).Offers buffer))
  | .destroyFrame _ => isTrue trivial
  | .deliver node _ source _ => inferInstanceAs (Decidable ((frames node).copied = some source))
  | .screenshotFailed _ => isTrue trivial

instance (w : Screencopy) (e : NodeId × ScreencopyEvent) : Decidable (CoherentStep w e) :=
  inferInstanceAs (Decidable (∀ a ∈ (w.step e).2, a.Coherent (w.offered e)))

/-! ### The protocol -/

/-- The node has a frame that is not over. -/
def Screencopy.Pending (w : Screencopy) (node : NodeId) : Prop :=
  ∃ c, w.client.captures node = some c ∧ c.pendingFrame = true

/-- Events come for a frame that is not over. Shared memory and DMA-BUF are each offered at most
once, before the offers end, and a frame is ready only after a copy. Captures begin under names that
are free. -/
def InOrder (w : Screencopy) (e : NodeId × ScreencopyEvent) : Prop :=
  match e.2 with
  | .startCapture _ _ => w.client.captures e.1 = none
  | .startScreenshot _ => w.client.captures w.client.screenshotId = none
  | .stopCapture => True
  | .buffer _ _ => w.Pending e.1 ∧
    (w.frames e.1).offersOver = false ∧ (w.frames e.1).shmOffer = none
  | .linuxDmabuf _ => w.Pending e.1 ∧ 3 ≤ w.client.managerVersion ∧
    (w.frames e.1).offersOver = false ∧ (w.frames e.1).dmabufOffer = none
  | .bufferDone _ => w.Pending e.1 ∧ 3 ≤ w.client.managerVersion ∧ (w.frames e.1).offersOver = false
  | .ready _ _ => w.Pending e.1 ∧ (w.frames e.1).copied.isSome
  | .failed => w.Pending e.1

instance (w : Screencopy) (node : NodeId) : Decidable (w.Pending node) :=
  inferInstanceAs (Decidable (∃ c ∈ w.client.captures node, c.pendingFrame = true))

instance (w : Screencopy) : ∀ e, Decidable (InOrder w e)
  | (node, .startCapture _ _) => inferInstanceAs (Decidable (w.client.captures node = none))
  | (_, .startScreenshot _) =>
    inferInstanceAs (Decidable (w.client.captures w.client.screenshotId = none))
  | (_, .stopCapture) => isTrue trivial
  | (node, .buffer _ _) => inferInstanceAs (Decidable (w.Pending node ∧
      (w.frames node).offersOver = false ∧ (w.frames node).shmOffer = none))
  | (node, .linuxDmabuf _) => inferInstanceAs (Decidable (w.Pending node ∧
      3 ≤ w.client.managerVersion ∧ (w.frames node).offersOver = false ∧
      (w.frames node).dmabufOffer = none))
  | (node, .bufferDone _) => inferInstanceAs (Decidable (w.Pending node ∧
      3 ≤ w.client.managerVersion ∧ (w.frames node).offersOver = false))
  | (node, .ready _ _) =>
    inferInstanceAs (Decidable (w.Pending node ∧ (w.frames node).copied.isSome))
  | (node, .failed) => inferInstanceAs (Decidable (w.Pending node))

/-! ### The condition -/

/-- A DMA-BUF that is kept while another offer is in effect has the offered format, or it has
another size and is replaced. -/
def ActiveCapture.DmabufFits (c : ActiveCapture) (alloc : Allocation) : Prop :=
  ∀ info buf, c.pendingDmabufFormat = some info → c.dmabufBuffer = some buf →
    if buf.width = info.width ∧ buf.height = info.height then buf.format = info.format
    else ∃ stride, alloc.dmabuf = .ok stride

/-- The buffers that the allocator hands out are what was asked for. -/
def BuffersFit (w : Screencopy) (e : NodeId × ScreencopyEvent) : Prop :=
  ∀ c, w.client.captures e.1 = some c →
    match e.2 with
    | .bufferDone alloc => c.DmabufFits alloc
    | .ready mapped _ => c.dmabufBuffer.isSome → mapped = .ok () → c.pendingDmabufFormat.isSome
    | _ => True

/-! ### What the client's state says about the frame -/

/-- What the capture keeps of the frame is what the frame offered. -/
structure Tracked (version : UInt32) (c : ActiveCapture) (f : Frame) : Prop where
  format : c.pendingFormat = f.shmOffer
  dmabuf : ∀ info, c.pendingDmabufFormat = some info → f.dmabufOffer = some info
  early : f.offersOver = false → f.copied = none
  dmabufCopied : ∀ buf, f.copied = some (.dmabuf buf) →
    c.dmabufBuffer = some buf ∧ c.pendingDmabufFormat.isSome
  shmCopied : ∀ buf, f.copied = some (.shm buf) →
    c.shmBuffer = some buf ∧ (c.dmabufBuffer = none ∨ c.pendingDmabufFormat = none)
  old : version < 3 → c.pendingDmabufFormat = none

section Captures

variable {version : UInt32} {c : ActiveCapture} {f : Frame} {linuxDmabuf : Bool}
  {alloc : Allocation}

/-- Before the copy there is little to keep. -/
theorem Tracked.of_not_copied (hformat : c.pendingFormat = f.shmOffer)
    (hdmabuf : ∀ info, c.pendingDmabufFormat = some info → f.dmabufOffer = some info)
    (hcopied : f.copied = none) (hold : version < 3 → c.pendingDmabufFormat = none) :
    Tracked version c f where
  format := hformat
  dmabuf := hdmabuf
  early _ := hcopied
  dmabufCopied buf h := by simp [hcopied] at h
  shmCopied buf h := by simp [hcopied] at h
  old := hold

theorem Tracked.fresh (version : UInt32) (hformat : c.pendingFormat = none)
    (hdmabuf : c.pendingDmabufFormat = none) : Tracked version c .fresh :=
  .of_not_copied hformat (by simp [hdmabuf]) rfl fun _ => hdmabuf

/-- A DMA-BUF that is replaced has another size. -/
theorem ActiveCapture.size_ne_of_needsNewDmabuf {info : DmabufFormatInfo}
    {buf : DmabufFrameBuffer} (hbuf : c.dmabufBuffer = some buf)
    (h : c.needsNewDmabuf info = true) : ¬ (buf.width = info.width ∧ buf.height = info.height) := by
  rintro ⟨hwidth, hheight⟩
  simp [needsNewDmabuf, hbuf, hwidth, hheight] at h

/-- What a copy into shared memory does: nothing, or a buffer with the offered parameters is there
and, if the frame is, it is copied. -/
theorem ActiveCapture.copyShm_cases (c : ActiveCapture) (shm : Bool) (buffer : ℕ)
    (mapped : Except String Unit) :
    c.copyShm shm buffer mapped = (c, none) ∨
    ∃ buf, c.pendingFormat = some buf.format ∧ c.copyShm shm buffer mapped =
      ({ c with shmBuffer := some buf }, if c.pendingFrame then some (.shm buf) else none) := by
  rw [copyShm]
  cases hfilter : c.pendingFormat.filter fun _ => shm with
  | none => exact .inl rfl
  | some format =>
    have hformat : c.pendingFormat = some format := (Option.filter_eq_some_iff.mp hfilter).1
    dsimp only
    cases hnew : c.needsNewShm format with
    | true =>
      rw [if_pos rfl]
      cases hbuf : ShmFrameBuffer.new buffer format mapped with
      | error e => exact .inl rfl
      | ok buf =>
        refine .inr ⟨buf, ?_, ?_⟩
        · rw [hformat, ShmFrameBuffer.format_new hbuf]
        · cases c.pendingFrame <;> simp [Except.map]
    | false =>
      rw [if_neg Bool.false_ne_true]
      obtain ⟨buf, hbuf, rfl⟩ := ShmFrameBuffer.format_eq_of_kept hnew
      refine .inr ⟨buf, hformat, ?_⟩
      have hsame : { c with shmBuffer := some buf } = c := by rw [← hbuf]
      rw [hsame]
      cases hframe : c.pendingFrame <;> simp [hbuf, hframe]

/-- A DMA-BUF that is not replaced has the size asked for. -/
theorem ActiveCapture.size_eq_of_not_needsNewDmabuf {info : DmabufFormatInfo}
    (h : c.needsNewDmabuf info = false) :
    ∃ buf, c.dmabufBuffer = some buf ∧ buf.width = info.width ∧ buf.height = info.height := by
  cases hbuf : c.dmabufBuffer with
  | none => simp [needsNewDmabuf, hbuf] at h
  | some buf =>
    simp [needsNewDmabuf, hbuf] at h
    exact ⟨buf, rfl, h.1, h.2⟩

/-- A frame that falls back to shared memory. -/
theorem Tracked.copyShm (h : Tracked version c f) (hover : f.offersOver = true)
    (hdmabuf : c.dmabufBuffer = none ∨ c.pendingDmabufFormat = none) (shm : Bool) (buffer : ℕ)
    (mapped : Except String Unit) :
    let r := c.copyShm shm buffer mapped
    (∀ b, r.2 = some b → f.Offers b) ∧ Tracked version r.1 { f with copied := r.2 } ∧
      r.1.dmabufBuffer = c.dmabufBuffer := by
  intro r
  have hcases : r = _ ∨ ∃ buf, _ ∧ r = _ := c.copyShm_cases shm buffer mapped
  obtain hr | ⟨buf, hformat, hr⟩ := hcases
  · rw [hr]
    refine ⟨by simp, ?_, rfl⟩
    exact .of_not_copied h.format h.dmabuf rfl h.old
  · rw [hr]
    refine ⟨?_, ?_, rfl⟩
    · intro b hb
      cases hframe : c.pendingFrame with
      | false => simp [hframe] at hb
      | true =>
        simp only [hframe, if_true, Option.some.injEq] at hb
        subst hb
        exact h.format.symm.trans hformat
    · constructor
      · exact h.format
      · exact h.dmabuf
      · intro hnot
        rw [hover] at hnot
        cases hnot
      · intro d hd
        cases hframe : c.pendingFrame <;> simp [hframe] at hd
      · intro d hd
        refine ⟨?_, hdmabuf⟩
        cases hframe : c.pendingFrame with
        | false => simp [hframe] at hd
        | true =>
          simp only [hframe, if_true, Option.some.injEq, FrameBuffer.shm.injEq] at hd
          rw [hd]
      · exact h.old

/-- A frame that is copied into a DMA-BUF while the offer is in effect. -/
theorem Tracked.copyDmabuf (h : Tracked version c f) (hover : f.offersOver = true)
    {buf : DmabufFrameBuffer} (hbuf : c.dmabufBuffer = some buf)
    (hpending : c.pendingDmabufFormat.isSome) :
    Tracked version c { f with copied := some (.dmabuf buf) } where
  format := h.format
  dmabuf := h.dmabuf
  early hnot := by
    rw [hover] at hnot
    cases hnot
  dmabufCopied d hd := by
    obtain rfl := FrameBuffer.dmabuf.inj (Option.some.inj hd)
    exact ⟨hbuf, hpending⟩
  shmCopied d hd := by cases Option.some.inj hd
  old := h.old

theorem Tracked.recordDmabufFormat (h : Tracked version c f) (hversion : 3 ≤ version)
    (hcopied : f.copied = none) (hnone : f.dmabufOffer = none) (info : DmabufFormatInfo) :
    Tracked version (c.recordDmabufFormat info) { f with dmabufOffer := some info } := by
  have hpending : c.pendingDmabufFormat = none := by
    by_contra hne
    obtain ⟨info', hinfo'⟩ := Option.ne_none_iff_exists'.mp hne
    rw [h.dmabuf info' hinfo'] at hnone
    cases hnone
  have hold : version < 3 → False := fun hlt => absurd hversion (UInt32.not_le.mpr hlt)
  rw [ActiveCapture.recordDmabufFormat]
  split_ifs
  · exact .of_not_copied h.format (fun _ => id) hcopied fun hlt => (hold hlt).elim
  · exact .of_not_copied h.format (by simp [hpending]) hcopied h.old

theorem Tracked.recordFormat (h : Tracked version c f) (hcopied : f.copied = none)
    (hnone : f.shmOffer = none) (info : BufferFormatInfo) (ended : Bool) :
    Tracked version (c.recordFormat info)
      { f with shmOffer := some info, offersOver := ended } := by
  rw [ActiveCapture.recordFormat, h.format, hnone, if_pos Option.isNone_none]
  exact .of_not_copied rfl h.dmabuf hcopied h.old

theorem ActiveCapture.dmabufFits_iff {info : DmabufFormatInfo} {buf : DmabufFrameBuffer}
    (hinfo : c.pendingDmabufFormat = some info) (hbuf : c.dmabufBuffer = some buf) :
    c.DmabufFits alloc ↔
      if buf.width = info.width ∧ buf.height = info.height then buf.format = info.format
      else ∃ stride, alloc.dmabuf = .ok stride := by
  constructor
  · exact fun h => h info buf hinfo hbuf
  · intro h info' buf' hinfo' hbuf'
    obtain rfl := Option.some.inj (hinfo.symm.trans hinfo')
    obtain rfl := Option.some.inj (hbuf.symm.trans hbuf')
    exact h

theorem Frame.offers_dmabuf_iff {info : DmabufFormatInfo} (hinfo : f.dmabufOffer = some info)
    (buf : DmabufFrameBuffer) : f.Offers (.dmabuf buf) ↔
      buf.format = info.format ∧ buf.width = info.width ∧ buf.height = info.height := by
  simp [Offers, hinfo]

/-- What comes of choosing a buffer and copying into it: the offers say so exactly if the DMA-BUF
that is kept fits, and then the client's state is what it should be. -/
structure Allocated (version : UInt32) (c : ActiveCapture) (f : Frame) (linuxDmabuf : Bool)
    (alloc : Allocation) (r : ActiveCapture × Option FrameBuffer) : Prop where
  offers : (∀ b, r.2 = some b → f.Offers b) ↔ c.DmabufFits alloc
  tracked : c.DmabufFits alloc → Tracked version r.1 { f with copied := r.2 }
  supported : r.1.dmabufBuffer.isSome → linuxDmabuf = true

theorem ActiveCapture.dmabufFits_of_none
    (hnone : c.dmabufBuffer = none ∨ c.pendingDmabufFormat = none) : c.DmabufFits alloc := by
  intro info buf hinfo hkept
  obtain hnone | hnone := hnone
  · simp [hnone] at hkept
  · simp [hnone] at hinfo

/-- Without a DMA-BUF, or an offer of one, there is only shared memory. -/
theorem Tracked.allocated_shm {c' : ActiveCapture} (h : Tracked version c' f)
    (hover : f.offersOver = true) (hfits : c.DmabufFits alloc)
    (hnone : c'.dmabufBuffer = none ∨ c'.pendingDmabufFormat = none)
    (hsup : c'.dmabufBuffer.isSome → linuxDmabuf = true) (shm : Bool) (buffer : ℕ)
    (mapped : Except String Unit) :
    Allocated version c f linuxDmabuf alloc (c'.copyShm shm buffer mapped) := by
  obtain ⟨hoffers, htracked, hbuf⟩ := h.copyShm hover hnone shm buffer mapped
  exact ⟨iff_of_true hoffers hfits, fun _ => htracked, fun hsome => hsup (hbuf ▸ hsome)⟩

/-- The buffer that is kept has the right size, but nobody has looked at its format. -/
theorem Tracked.allocated_kept (h : Tracked version c f) (hover : f.offersOver = true)
    (hlinux : linuxDmabuf = true) {info : DmabufFormatInfo} {buf : DmabufFrameBuffer}
    (hinfo : c.pendingDmabufFormat = some info) (hbuf : c.dmabufBuffer = some buf)
    (hsize : buf.width = info.width ∧ buf.height = info.height) :
    Allocated version c f linuxDmabuf alloc (c, some (.dmabuf buf)) := by
  refine ⟨?_, fun _ => h.copyDmabuf hover hbuf (hinfo ▸ rfl), fun _ => hlinux⟩
  rw [ActiveCapture.dmabufFits_iff hinfo hbuf, if_pos hsize]
  simp [Frame.offers_dmabuf_iff (h.dmabuf info hinfo), hsize]

/-- A new buffer is what was offered. -/
theorem Tracked.allocated_new (h : Tracked version c f) (hover : f.offersOver = true)
    (hcopied : f.copied = none) (hlinux : linuxDmabuf = true) {info : DmabufFormatInfo}
    (hinfo : c.pendingDmabufFormat = some info) (hnew : c.needsNewDmabuf info = true)
    {buffer : ℕ} {stride : UInt32} (halloc : alloc.dmabuf = .ok stride) :
    let buf : DmabufFrameBuffer := ⟨buffer, info.format, info.width, info.height, stride⟩
    Allocated version c f linuxDmabuf alloc
      ({ c with dmabufBuffer := some buf, shmBuffer := none }, some (.dmabuf buf)) := by
  refine ⟨iff_of_true ?_ ?_, fun _ => ?_, fun _ => hlinux⟩
  · intro b hb
    obtain rfl := Option.some.inj hb
    exact ⟨info, h.dmabuf info hinfo, rfl, rfl, rfl⟩
  · intro info' buf hinfo' hbuf
    obtain rfl := Option.some.inj (hinfo.symm.trans hinfo')
    rw [if_neg (ActiveCapture.size_ne_of_needsNewDmabuf hbuf hnew)]
    exact ⟨stride, halloc⟩
  · refine Tracked.copyDmabuf ?_ hover rfl (hinfo ▸ rfl)
    exact .of_not_copied h.format h.dmabuf hcopied h.old

/-- If there is no new buffer, the one of the wrong size is still there, and the frame is copied
into it. -/
theorem Tracked.allocated_failed (h : Tracked version c f) (hlinux : linuxDmabuf = true)
    {info : DmabufFormatInfo} {buf : DmabufFrameBuffer}
    (hinfo : c.pendingDmabufFormat = some info) (hbuf : c.dmabufBuffer = some buf)
    (hnew : c.needsNewDmabuf info = true) {e : String} (halloc : alloc.dmabuf = .error e)
    (r : ActiveCapture) :
    Allocated version c f linuxDmabuf alloc (r, some (.dmabuf buf)) := by
  have hne := ActiveCapture.size_ne_of_needsNewDmabuf hbuf hnew
  have hnot : ¬ c.DmabufFits alloc := by
    rw [ActiveCapture.dmabufFits_iff hinfo hbuf, if_neg hne, halloc]
    rintro ⟨stride, hstride⟩
    cases hstride
  refine ⟨iff_of_false ?_ hnot, fun hfits => absurd hfits hnot, fun _ => hlinux⟩
  intro hoffers
  have hoffer := hoffers _ rfl
  rw [Frame.offers_dmabuf_iff (h.dmabuf info hinfo)] at hoffer
  exact hne hoffer.2

/-- **A frame is copied where its offers say, exactly if the DMA-BUF that is kept fits them.** -/
theorem Tracked.allocateAndCopy (h : Tracked version c f) (hover : f.offersOver = true)
    (hcopied : f.copied = none) (hframe : c.pendingFrame = true)
    (hsup : c.dmabufBuffer.isSome → linuxDmabuf = true) (shm : Bool) (buffer : ℕ) :
    Allocated version c f linuxDmabuf alloc (c.allocateAndCopy linuxDmabuf shm buffer alloc) := by
  have hkept : ∀ buf : Option DmabufFrameBuffer, buf.filter (fun _ => c.pendingFrame) = buf := by
    intro buf
    rw [hframe]
    cases buf with
    | none => rfl
    | some buf => rfl
  rw [ActiveCapture.allocateAndCopy]
  cases hfilter : c.pendingDmabufFormat.filter fun _ => linuxDmabuf with
  | none =>
    have hnone : c.dmabufBuffer = none ∨ c.pendingDmabufFormat = none := by
      cases hinfo : c.pendingDmabufFormat with
      | none => exact .inr rfl
      | some info =>
        left
        by_contra hne
        have hlinux := hsup (Option.isSome_iff_ne_none.mpr hne)
        simp [hinfo, hlinux] at hfilter
    exact h.allocated_shm hover (ActiveCapture.dmabufFits_of_none hnone) hnone hsup shm (buffer + 1)
      alloc.shm
  | some info =>
    obtain ⟨hinfo, hlinux⟩ := Option.filter_eq_some_iff.mp hfilter
    dsimp only
    rw [ActiveCapture.allocateDmabuf]
    cases hnew : c.needsNewDmabuf info with
    | false =>
      obtain ⟨buf, hbuf, hsize⟩ := ActiveCapture.size_eq_of_not_needsNewDmabuf hnew
      rw [if_neg Bool.false_ne_true, hkept]
      simp only [hbuf]
      exact h.allocated_kept hover hlinux hinfo hbuf hsize
    | true =>
      rw [if_pos rfl]
      cases halloc : alloc.dmabuf with
      | ok stride =>
        simp only [DmabufFrameBuffer.new, Except.map, hkept]
        exact h.allocated_new hover hcopied hlinux hinfo hnew halloc
      | error e =>
        simp only [DmabufFrameBuffer.new, Except.map, hkept]
        cases hbuf : c.dmabufBuffer with
        | none =>
          have hgivenUp : Tracked version
              { c with pendingDmabufFormat := none, dmabufDisabled := true } f :=
            .of_not_copied h.format (by simp) hcopied fun _ => rfl
          have hfits : c.DmabufFits alloc := ActiveCapture.dmabufFits_of_none (.inl hbuf)
          have hshm : Allocated version c f linuxDmabuf alloc _ :=
            hgivenUp.allocated_shm hover hfits (.inr rfl) (fun _ => hlinux) shm (buffer + 1)
              alloc.shm
          rw [hbuf] at hshm
          exact hshm
        | some buf => exact h.allocated_failed hlinux hinfo hbuf hnew halloc _

end Captures

/-! ### One node at a time -/

/-- What the compositor remembers of a request for the frame itself. -/
def Frame.remember (f : Frame) : Action → Frame
  | .captureOutput _ _ _ => .fresh
  | .copy _ buffer => { f with copied := some buffer }
  | _ => f

/-- The request is for the node, if it is a request for a frame. -/
def Action.IsFor (node : NodeId) : Action → Prop
  | .captureOutput n _ _ => n = node
  | .copy n _ => n = node
  | _ => True

/-- The action is for the node, and no buffer can be wrong for it. -/
def Action.Quiet (node : NodeId) (a : Action) : Prop :=
  a.IsFor node ∧ ∀ frames, a.Coherent frames

theorem foldl_remember (frames : NodeId → Frame) (node : NodeId) (f : Frame) (as : List Action)
    (h : ∀ a ∈ as, a.IsFor node) :
    as.foldl Action.remember (Function.update frames node f) =
      Function.update frames node (as.foldl Frame.remember f) := by
  induction as generalizing f with
  | nil => rfl
  | cons a as ih =>
    have ha := h a (List.mem_cons_self ..)
    rw [List.foldl_cons, List.foldl_cons, ← ih _ fun b hb => h b (List.mem_cons_of_mem _ hb)]
    congr 1
    cases a with
    | captureOutput n cursor output =>
      obtain rfl : n = node := ha
      exact Function.update_idem ..
    | copy n buffer =>
      obtain rfl : n = node := ha
      simp [Action.remember, Frame.remember]
    | destroyFrame n => rfl
    | deliver n sink source frame => rfl
    | screenshotFailed error => rfl

theorem foldl_remember_copy {f : Frame} (hcopied : f.copied = none) (node : NodeId)
    (b : Option FrameBuffer) :
    (b.map (Action.copy node)).toList.foldl Frame.remember f = { f with copied := b } := by
  cases b with
  | none =>
    obtain ⟨shmOffer, dmabufOffer, offersOver, copied⟩ := f
    obtain rfl : copied = none := hcopied
    rfl
  | some b => rfl

/-- What a step must leave in the place of a capture and its frame. -/
structure Settled (version : UInt32) (linuxDmabuf : Bool) (c : Option ActiveCapture) (f : Frame) :
    Prop where
  tracked : ∀ c', c = some c' → c'.pendingFrame = true → Tracked version c' f
  supported : ∀ c', c = some c' → c'.dmabufBuffer.isSome → linuxDmabuf = true

theorem Settled.none {version : UInt32} {linuxDmabuf : Bool} {f : Frame} :
    Settled version linuxDmabuf none f where
  tracked c hc := by cases hc
  supported c hc := by cases hc

/-- Every capture is settled. -/
def Invariant (w : Screencopy) : Prop :=
  ∀ node, Settled w.client.managerVersion w.client.linuxDmabuf (w.client.captures node)
    (w.frames node)

theorem Invariant.bound (version : UInt32) (manager shm linuxDmabuf pipewire frameTx : Bool) :
    Invariant (.bound version manager shm linuxDmabuf pipewire frameTx) := by
  exact fun _ => .none

/-- A step is at most about one node. -/
theorem Invariant.update {w w' : Screencopy} {node : NodeId} {c : Option ActiveCapture} {f : Frame}
    (h : Invariant w) (hversion : w'.client.managerVersion = w.client.managerVersion)
    (hlinux : w'.client.linuxDmabuf = w.client.linuxDmabuf)
    (hcaptures : w'.client.captures = Function.update w.client.captures node c)
    (hframes : w'.frames = Function.update w.frames node f)
    (hnode : Settled w.client.managerVersion w.client.linuxDmabuf c f) : Invariant w' := by
  intro n
  rw [hversion, hlinux, hcaptures, hframes]
  by_cases hn : n = node
  · subst hn
    rw [Function.update_self, Function.update_self]
    exact hnode
  · rw [Function.update_of_ne hn, Function.update_of_ne hn]
    exact h n

section Ready

variable {version : UInt32} {c : ActiveCapture} {f : Frame}

/-- **The pixels come from where the frame was copied, exactly if a DMA-BUF that is there was
offered for this frame.** -/
theorem Tracked.delivers_iff (h : Tracked version c f) (hcopied : f.copied.isSome)
    (mapped : Except String Unit) :
    (∀ source frame, ({ c with pendingFrame := false }.takePixels mapped).2 = .ok (source, frame) →
      f.copied = some source) ↔
    (c.dmabufBuffer.isSome → mapped = .ok () → c.pendingDmabufFormat.isSome) := by
  obtain ⟨b, hb⟩ := Option.isSome_iff_exists.mp hcopied
  rw [hb]
  simp only [ActiveCapture.takePixels]
  cases hbuf : c.dmabufBuffer with
  | some buf =>
    cases mapped with
    | error e => simp
    | ok u =>
      cases b with
      | dmabuf d =>
        obtain ⟨hkept, hpending⟩ := h.dmabufCopied d hb
        obtain rfl := Option.some.inj (hbuf.symm.trans hkept)
        simp [hpending]
      | shm d =>
        -- The frame went to shared memory, and the DMA-BUF is older.
        obtain ⟨-, hnone | hnone⟩ := h.shmCopied d hb
        · simp [hbuf] at hnone
        · simp [hnone]
  | none =>
    cases b with
    | dmabuf d =>
      obtain ⟨hkept, -⟩ := h.dmabufCopied d hb
      simp [hbuf] at hkept
    | shm d =>
      obtain ⟨hkept, -⟩ := h.shmCopied d hb
      simp [hkept]

/-- A capture that goes on with the next frame. -/
theorem settled_requestNextFrame (hframe : c.pendingFrame = false) {linuxDmabuf : Bool}
    (hsup : c.dmabufBuffer.isSome → linuxDmabuf = true) (manager : Bool) (node : NodeId)
    (as : List Action) :
    Settled version linuxDmabuf (some (c.requestNextFrame manager node).1)
      ((as ++ (c.requestNextFrame manager node).2).foldl Frame.remember f) := by
  rw [List.foldl_append]
  cases manager with
  | true =>
    constructor
    · intro c' hc' _
      obtain rfl := Option.some.inj hc'
      exact .fresh version rfl rfl
    · intro c' hc'
      obtain rfl := Option.some.inj hc'
      exact hsup
  | false =>
    constructor
    · intro c' hc' hframe'
      obtain rfl := Option.some.inj hc'
      rw [ActiveCapture.requestNextFrame, if_neg Bool.false_ne_true, hframe] at hframe'
      cases hframe'
    · intro c' hc'
      obtain rfl := Option.some.inj hc'
      exact hsup

theorem quiet_requestNextFrame (c : ActiveCapture) (manager : Bool) (node : NodeId) :
    ∀ a ∈ (c.requestNextFrame manager node).2, a.Quiet node := by
  intro a ha
  rw [ActiveCapture.requestNextFrame] at ha
  split_ifs at ha
  · rw [List.mem_singleton] at ha
    subst ha
    exact ⟨rfl, fun _ => trivial⟩
  · cases ha

theorem quiet_destroyFrame (c : ActiveCapture) (node : NodeId) :
    ∀ a ∈ c.destroyFrame node, a.Quiet node := by
  intro a ha
  rw [ActiveCapture.destroyFrame] at ha
  split_ifs at ha
  · rw [List.mem_singleton] at ha
    subst ha
    exact ⟨trivial, fun _ => trivial⟩
  · cases ha

/-- What becomes of a frame that is ready: its pixels are delivered if they can be taken, and the
capture is over or goes on with the next frame. -/
theorem frameReady_cases (s : ScreencopyState) (node : NodeId) (mapped : Except String Unit)
    (received : Bool) (c : ActiveCapture) :
    let result := { c with pendingFrame := false }.takePixels mapped
    let next := result.1.requestNextFrame s.manager node
    ∃ as, (s.frameReady node mapped received c = (none, as) ∨
        s.frameReady node mapped received c = (some next.1, as ++ next.2)) ∧
      ((∃ e, result.2 = .error e ∧ as = c.destroyFrame node) ∨
        ∃ source frame sink, result.2 = .ok (source, frame) ∧
          as = c.destroyFrame node ++ [.deliver node sink source frame]) := by
  intro result next
  cases hresult : result.2 with
  | error e =>
    refine ⟨c.destroyFrame node, .inr ?_, .inl ⟨e, rfl, rfl⟩⟩
    simp only [ScreencopyState.frameReady, result, next] at hresult ⊢
    rw [hresult]
  | ok p =>
    obtain ⟨source, frame⟩ := p
    refine ⟨_, ?_, .inr ⟨source, frame, s.sink c received, rfl, rfl⟩⟩
    simp only [ScreencopyState.frameReady, result, next] at hresult ⊢
    rw [hresult]
    cases s.sink c received with
    | screenshot => exact .inl rfl
    | direct received =>
      cases received with
      | false => exact .inl rfl
      | true => exact .inr rfl
    | pipewire => exact .inr rfl
    | nobody => exact .inr rfl

/-- Giving a DMA-BUF up is the only thing that taking the pixels does to a capture. -/
theorem takePixels_fst (c : ActiveCapture) (mapped : Except String Unit) :
    (c.takePixels mapped).1.pendingFrame = c.pendingFrame ∧
      ((c.takePixels mapped).1.dmabufBuffer.isSome → c.dmabufBuffer.isSome) := by
  rw [ActiveCapture.takePixels]
  cases hbuf : c.dmabufBuffer with
  | some buf => cases mapped <;> simp
  | none => cases c.shmBuffer <;> simp [hbuf]

theorem mem_frameReady {s : ScreencopyState} {node : NodeId} {mapped : Except String Unit}
    {received : Bool} {a : Action} (ha : a ∈ (s.frameReady node mapped received c).2) :
    a.Quiet node ∨ ∃ sink source frame,
      a = .deliver node sink source frame ∧
        ({ c with pendingFrame := false }.takePixels mapped).2 = .ok (source, frame) := by
  obtain ⟨as, hresult, has⟩ := frameReady_cases s node mapped received c
  have hcases : a ∈ as ∨ a ∈ (ActiveCapture.requestNextFrame
      ({ c with pendingFrame := false }.takePixels mapped).1 s.manager node).2 := by
    obtain hresult | hresult := hresult
    · rw [hresult] at ha
      exact .inl ha
    · rw [hresult] at ha
      exact List.mem_append.mp ha
  obtain hin | hin := hcases
  · obtain ⟨e, -, rfl⟩ | ⟨source, frame, sink, hok, rfl⟩ := has
    · exact .inl (quiet_destroyFrame c node a hin)
    · rw [List.mem_append, List.mem_singleton] at hin
      obtain hin | rfl := hin
      · exact .inl (quiet_destroyFrame c node a hin)
      · exact .inr ⟨sink, source, frame, rfl, hok⟩
  · exact .inl (quiet_requestNextFrame _ _ _ a hin)

theorem deliver_mem_frameReady (s : ScreencopyState) (node : NodeId) {mapped : Except String Unit}
    (received : Bool) {source : FrameBuffer} {frame : RawFrame}
    (hok : ({ c with pendingFrame := false }.takePixels mapped).2 = .ok (source, frame)) :
    ∃ sink, .deliver node sink source frame ∈ (s.frameReady node mapped received c).2 := by
  obtain ⟨as, hresult, ⟨e, herror, -⟩ | ⟨source', frame', sink, hok', rfl⟩⟩ :=
    frameReady_cases s node mapped received c
  · rw [hok] at herror
    cases herror
  · rw [hok] at hok'
    cases hok'
    refine ⟨sink, ?_⟩
    obtain hresult | hresult := hresult
    · rw [hresult]
      simp
    · rw [hresult]
      simp

theorem settled_frameReady (s : ScreencopyState) (node : NodeId) (mapped : Except String Unit)
    (received : Bool) (f : Frame) (hsup : c.dmabufBuffer.isSome → s.linuxDmabuf = true) :
    Settled version s.linuxDmabuf (s.frameReady node mapped received c).1
      ((s.frameReady node mapped received c).2.foldl Frame.remember f) := by
  obtain ⟨as, hresult, -⟩ := frameReady_cases s node mapped received c
  obtain ⟨hframe, hbuf⟩ := takePixels_fst { c with pendingFrame := false } mapped
  obtain hresult | hresult := hresult
  · rw [hresult]
    exact .none
  · rw [hresult]
    exact settled_requestNextFrame hframe (fun hsome => hsup (hbuf hsome)) _ _ _

end Ready

section Events

variable {w : Screencopy} {node : NodeId} {c : ActiveCapture} {e : ScreencopyEvent}

/-- An event is handled coherently exactly if the buffers fit, and then all is settled again. -/
structure Handled (w : Screencopy) (e : NodeId × ScreencopyEvent) : Prop where
  iff : CoherentStep w e ↔ BuffersFit w e
  next : BuffersFit w e → Invariant (w.step e).1

/-- The frame of the node when the event has been sent. -/
theorem offered_self (w : Screencopy) (node : NodeId) (e : ScreencopyEvent) :
    w.offered (node, e) node = (w.frames node).offer w.client.managerVersion e :=
  Function.update_self ..

/-- What there is to show about an event that comes to the capture of its node. -/
theorem Handled.of_update {s : ScreencopyState} {c' : Option ActiveCapture} {as : List Action}
    (h : Invariant w) (hhandle : w.client.handle node e = (s, as))
    (hversion : s.managerVersion = w.client.managerVersion)
    (hlinux : s.linuxDmabuf = w.client.linuxDmabuf)
    (hcaptures : s.captures = Function.update w.client.captures node c')
    (hfor : ∀ a ∈ as, a.IsFor node)
    (hiff : (∀ a ∈ as, a.Coherent (w.offered (node, e))) ↔ BuffersFit w (node, e))
    (hsettled : BuffersFit w (node, e) → Settled w.client.managerVersion w.client.linuxDmabuf c'
      (as.foldl Frame.remember ((w.frames node).offer w.client.managerVersion e))) :
    Handled w (node, e) := by
  have hstep : w.step (node, e) = (⟨s, as.foldl Action.remember (w.offered (node, e))⟩, as) := by
    rw [Screencopy.step, hhandle]
  constructor
  · rw [CoherentStep, hstep]
    exact hiff
  · intro hfit
    rw [hstep]
    exact h.update hversion hlinux hcaptures (foldl_remember _ _ _ _ hfor) (hsettled hfit)

/-- An event that leads to no copy and no delivery. -/
theorem Handled.of_quiet {s : ScreencopyState} {c' : Option ActiveCapture} {as : List Action}
    (h : Invariant w) (hhandle : w.client.handle node e = (s, as))
    (hversion : s.managerVersion = w.client.managerVersion)
    (hlinux : s.linuxDmabuf = w.client.linuxDmabuf)
    (hcaptures : s.captures = Function.update w.client.captures node c')
    (hquiet : ∀ a ∈ as, a.Quiet node) (hfit : BuffersFit w (node, e))
    (hsettled : Settled w.client.managerVersion w.client.linuxDmabuf c'
      (as.foldl Frame.remember ((w.frames node).offer w.client.managerVersion e))) :
    Handled w (node, e) := by
  refine .of_update h hhandle hversion hlinux hcaptures ?_ (iff_of_true ?_ hfit) fun _ => hsettled
  · exact fun a ha => (hquiet a ha).1
  · exact fun a ha => (hquiet a ha).2 _

theorem ScreencopyState.onCapture_some {s : ScreencopyState} (hc : s.captures node = some c)
    (f : ActiveCapture → Option ActiveCapture × List Action) :
    s.onCapture node f =
      ({ s with captures := Function.update s.captures node (f c).1 }, (f c).2) := by
  rw [onCapture, hc]

/-- A capture in the middle of a frame. -/
theorem Settled.of_tracked {version : UInt32} {linuxDmabuf : Bool} {f : Frame}
    (ht : Tracked version c f) (hsup : c.dmabufBuffer.isSome → linuxDmabuf = true) :
    Settled version linuxDmabuf (some c) f where
  tracked c' hc' _ := by
    obtain rfl := Option.some.inj hc'
    exact ht
  supported c' hc' := by
    obtain rfl := Option.some.inj hc'
    exact hsup

theorem handled_linuxDmabuf {info : DmabufFormatInfo} (h : Invariant w)
    (ho : InOrder w (node, .linuxDmabuf info)) : Handled w (node, .linuxDmabuf info) := by
  obtain ⟨⟨c, hc, hframe⟩, hversion, hover, hnone⟩ := ho
  have ht := (h node).tracked c hc hframe
  have hsup := (h node).supported c hc
  refine .of_quiet h (ScreencopyState.onCapture_some hc _) rfl rfl rfl (by simp)
    (fun _ _ => trivial) (.of_tracked ?_ ?_)
  · exact ht.recordDmabufFormat hversion (ht.early hover) hnone info
  · rw [ActiveCapture.recordDmabufFormat]
    split_ifs
    · exact hsup
    · exact hsup

/-- An event at which the frame is copied. -/
theorem Handled.of_copy {alloc : Allocation} {f : Frame} (h : Invariant w)
    (hhandle : let r := w.client.allocateAndCopy node alloc c
      w.client.handle node e = ScreencopyState.countBuffers
        ({ w.client with captures := Function.update w.client.captures node r.1 }, r.2))
    (hframe : c.pendingFrame = true) (hsup : c.dmabufBuffer.isSome → w.client.linuxDmabuf = true)
    (hf : (w.frames node).offer w.client.managerVersion e = f) (hover : f.offersOver = true)
    (hcopied : f.copied = none) (ht : Tracked w.client.managerVersion c f)
    (hfit : BuffersFit w (node, e) ↔ c.DmabufFits alloc) : Handled w (node, e) := by
  obtain ⟨hiff, htracked, hsup'⟩ :=
    ht.allocateAndCopy hover hcopied hframe hsup w.client.shm w.client.nextBuffer
  refine .of_update h hhandle rfl rfl rfl ?_ ?_ ?_
  · intro a ha
    obtain ⟨b, -, rfl⟩ : ∃ b, _ ∧ Action.copy node b = a := by
      simpa [ScreencopyState.allocateAndCopy] using ha
    rfl
  · rw [hfit, ← hiff]
    simp [ScreencopyState.allocateAndCopy, Action.Coherent, offered_self, hf]
  · intro hfits
    refine .of_tracked ?_ hsup'
    rw [hf, ScreencopyState.allocateAndCopy, foldl_remember_copy hcopied]
    exact htracked (hfit.mp hfits)

theorem handled_bufferDone {alloc : Allocation} (h : Invariant w)
    (ho : InOrder w (node, .bufferDone alloc)) : Handled w (node, .bufferDone alloc) := by
  obtain ⟨⟨c, hc, hframe⟩, hversion, hover⟩ := ho
  have ht := (h node).tracked c hc hframe
  have hhandle := congrArg ScreencopyState.countBuffers (ScreencopyState.onCapture_some hc fun c =>
    w.client.allocateAndCopy node alloc { c with bufferDoneReceived := true })
  refine .of_copy h hhandle hframe ((h node).supported c hc) rfl rfl (ht.early hover) ?_ ?_
  · exact .of_not_copied ht.format ht.dmabuf (ht.early hover) ht.old
  · constructor
    · exact fun hfit => hfit c hc
    · intro hfit c' hc'
      obtain rfl := Option.some.inj (hc.symm.trans hc')
      exact hfit

theorem handled_buffer {info : BufferFormatInfo} {alloc : Allocation} (h : Invariant w)
    (ho : InOrder w (node, .buffer info alloc)) : Handled w (node, .buffer info alloc) := by
  obtain ⟨⟨c, hc, hframe⟩, hover, hnone⟩ := ho
  have ht := (h node).tracked c hc hframe
  have hsup := (h node).supported c hc
  have htracked := ht.recordFormat (ht.early hover) hnone info
  have hfit : BuffersFit w (node, .buffer info alloc) := fun _ _ => trivial
  have hrecord : c.recordFormat info = { c with pendingFormat := some info } := by
    rw [ActiveCapture.recordFormat, ht.format, hnone, if_pos Option.isNone_none]
  have hhandle : w.client.handle node (.buffer info alloc) = ScreencopyState.countBuffers
      (w.client.onCapture node fun c => if w.client.managerVersion < 3 then
        w.client.allocateAndCopy node alloc (c.recordFormat info)
        else (some (c.recordFormat info), [])) := rfl
  by_cases hversion : w.client.managerVersion < 3
  · simp only [ScreencopyState.onCapture_some hc, if_pos hversion] at hhandle
    have hold := ht.old hversion
    refine .of_copy h hhandle (hrecord ▸ hframe) (hrecord ▸ hsup) rfl ?_ (ht.early hover)
      (htracked _) (iff_of_true hfit ?_)
    · simp [Frame.offer, hversion]
    · intro info' buf hinfo'
      rw [hrecord, hold] at hinfo'
      cases hinfo'
  · simp only [ScreencopyState.onCapture_some hc, if_neg hversion] at hhandle
    exact .of_quiet h hhandle rfl rfl rfl (by simp) hfit
      (.of_tracked (htracked _) (hrecord ▸ hsup))

theorem handled_ready {mapped : Except String Unit} {received : Bool} (h : Invariant w)
    (ho : InOrder w (node, .ready mapped received)) : Handled w (node, .ready mapped received) := by
  obtain ⟨⟨c, hc, hframe⟩, hcopied⟩ := ho
  have ht := (h node).tracked c hc hframe
  have hsup := (h node).supported c hc
  have hhandle := congrArg (fun next : ScreencopyState × List Action =>
      ({ next.1 with frameTx := w.client.frameTx && !next.2.any Action.isRefused }, next.2))
    (ScreencopyState.onCapture_some hc (w.client.frameReady node mapped received))
  refine .of_update h hhandle rfl rfl rfl ?_ ?_ fun _ => settled_frameReady _ _ _ _ _ hsup
  · intro a ha
    obtain hquiet | ⟨sink, source, frame, rfl, -⟩ := mem_frameReady ha
    · exact hquiet.1
    · trivial
  · have hfit : BuffersFit w (node, .ready mapped received) ↔ (c.dmabufBuffer.isSome →
        mapped = .ok () → c.pendingDmabufFormat.isSome) := by
      constructor
      · exact fun hfit => hfit c hc
      · intro hfit c' hc'
        obtain rfl := Option.some.inj (hc.symm.trans hc')
        exact hfit
    rw [hfit, ← ht.delivers_iff hcopied]
    constructor
    · intro hcoherent source frame hok
      obtain ⟨sink, hmem⟩ := deliver_mem_frameReady w.client node received hok
      have hdelivered := hcoherent _ hmem
      rwa [Action.Coherent, offered_self] at hdelivered
    · intro hcopy a ha
      obtain hquiet | ⟨sink, source, frame, rfl, hok⟩ := mem_frameReady ha
      · exact hquiet.2 _
      · rw [Action.Coherent, offered_self]
        exact hcopy source frame hok

theorem handled_failed (h : Invariant w) (ho : InOrder w (node, .failed)) :
    Handled w (node, .failed) := by
  obtain ⟨c, hc, hframe⟩ := ho
  have hsup := (h node).supported c hc
  have hhandle : w.client.handle node .failed = _ := ScreencopyState.onCapture_some hc _
  have hdestroy := quiet_destroyFrame c node
  have hfit : BuffersFit w (node, .failed) := fun _ _ => trivial
  by_cases hshot : c.screenshotReply = true
  · simp only [if_pos hshot] at hhandle
    refine .of_quiet h hhandle rfl rfl rfl ?_ hfit .none
    rw [List.forall_mem_append, List.forall_mem_singleton]
    exact ⟨hdestroy, trivial, fun _ => trivial⟩
  · simp only [if_neg hshot] at hhandle
    refine .of_quiet h hhandle rfl rfl rfl ?_ hfit
      (settled_requestNextFrame (c := { c with pendingFrame := false }) rfl hsup _ _ _)
    rw [List.forall_mem_append]
    exact ⟨hdestroy, quiet_requestNextFrame _ _ _⟩

/-- An event that changes nothing. -/
theorem Handled.of_idle (h : Invariant w) (hhandle : w.client.handle node e = (w.client, []))
    (hoffer : (w.frames node).offer w.client.managerVersion e = w.frames node)
    (hfit : BuffersFit w (node, e)) : Handled w (node, e) := by
  refine .of_quiet h hhandle rfl rfl (Function.update_eq_self ..).symm (by simp) hfit ?_
  rw [hoffer]
  exact h node

theorem handled_stopCapture (h : Invariant w) : Handled w (node, .stopCapture) := by
  have hfit : BuffersFit w (node, .stopCapture) := fun _ _ => trivial
  cases hc : w.client.captures node with
  | none =>
    refine .of_idle h ?_ rfl hfit
    rw [ScreencopyState.handle, ScreencopyState.stopCapture, ScreencopyState.onCapture, hc]
  | some c =>
    have hhandle : w.client.handle node .stopCapture = _ := ScreencopyState.onCapture_some hc _
    exact .of_quiet h hhandle rfl rfl rfl (quiet_destroyFrame c node) hfit .none

/-- A capture that begins. -/
theorem settled_start (version : UInt32) (linuxDmabuf : Bool) (output : ℕ)
    (cursorOverlay screenshot : Bool) :
    Settled version linuxDmabuf (some (.start output cursorOverlay screenshot)) .fresh := by
  refine .of_tracked (.fresh version rfl rfl) ?_
  intro hsome
  cases hsome

/-- An event at which a capture begins. -/
theorem Handled.of_start {s : ScreencopyState} {n : NodeId} {c' : Option ActiveCapture}
    {cursor : Bool} {output : ℕ} (h : Invariant w)
    (hhandle : w.client.handle node e = (s, [.captureOutput n cursor output]))
    (hversion : s.managerVersion = w.client.managerVersion)
    (hlinux : s.linuxDmabuf = w.client.linuxDmabuf)
    (hcaptures : s.captures = Function.update w.client.captures n c')
    (hoffered : w.offered (node, e) = w.frames) (hfit : BuffersFit w (node, e))
    (hsettled : Settled w.client.managerVersion w.client.linuxDmabuf c' .fresh) :
    Handled w (node, e) := by
  have hstep : w.step (node, e) =
      (⟨s, Function.update w.frames n .fresh⟩, [.captureOutput n cursor output]) := by
    rw [Screencopy.step, hhandle, hoffered]
    rfl
  constructor
  · refine iff_of_true ?_ hfit
    intro a ha
    rw [hstep, List.mem_singleton] at ha
    subst ha
    trivial
  · intro _
    rw [hstep]
    exact h.update hversion hlinux hcaptures rfl hsettled

theorem handled_startCapture {output : ℕ} {cursor : Bool} (h : Invariant w) :
    Handled w (node, .startCapture output cursor) := by
  have hfit : BuffersFit w (node, .startCapture output cursor) := fun _ _ => trivial
  by_cases hm : w.client.manager = true
  · exact .of_start h (if_pos hm) rfl rfl rfl (Function.update_eq_self ..) hfit (settled_start ..)
  · exact .of_idle h (if_neg hm) rfl hfit

theorem handled_startScreenshot {output : ℕ} (h : Invariant w) :
    Handled w (node, .startScreenshot output) := by
  have hfit : BuffersFit w (node, .startScreenshot output) := fun _ _ => trivial
  by_cases hm : w.client.manager = true
  · have hhandle : w.client.handle node (.startScreenshot output) = _ :=
      (if_pos hm).trans (if_pos hm)
    exact .of_start h hhandle rfl rfl rfl (Function.update_eq_self ..) hfit (settled_start ..)
  · refine .of_quiet h (if_neg hm) rfl rfl (Function.update_eq_self ..).symm ?_ hfit (h node)
    rw [List.forall_mem_singleton]
    exact ⟨trivial, fun _ => trivial⟩

theorem Invariant.handled (h : Invariant w) (ho : InOrder w (node, e)) : Handled w (node, e) := by
  cases e with
  | startCapture output cursor => exact handled_startCapture h
  | startScreenshot output => exact handled_startScreenshot h
  | stopCapture => exact handled_stopCapture h
  | buffer info alloc => exact handled_buffer h ho
  | linuxDmabuf info => exact handled_linuxDmabuf h ho
  | bufferDone alloc => exact handled_bufferDone h ho
  | ready mapped received => exact handled_ready h ho
  | failed => exact handled_failed h ho

end Events

/-! ### Runs -/

/-- **Frames and buffers go together exactly if the buffers fit.** In every run that keeps to the
protocol, from whatever globals could be bound: every copy is requested into a buffer with the
parameters offered for the frame and every delivery is from the buffer that the frame was copied
into, exactly if `BuffersFit` holds at every step. -/
theorem coherent_iff_buffersFit (version : UInt32) (manager shm linuxDmabuf pipewire frameTx : Bool)
    (es : List (NodeId × ScreencopyEvent))
    (ho : screencopyMachine.Along InOrder
      (.bound version manager shm linuxDmabuf pipewire frameTx) es) :
    screencopyMachine.Along CoherentStep
        (.bound version manager shm linuxDmabuf pipewire frameTx) es ↔
      screencopyMachine.Along BuffersFit
        (.bound version manager shm linuxDmabuf pipewire frameTx) es :=
  Machine.along_congr_of_invariant (fun _ _ h ho => (Invariant.handled h ho).iff)
    (fun _ _ h ho => (Invariant.handled h ho).next) (Invariant.bound _ _ _ _ _ _) ho

/-- The offers of a frame of the given size, in both kinds of memory. -/
def offers (node : NodeId) (width height : UInt32) (alloc : Allocation) :
    List (NodeId × ScreencopyEvent) :=
  [(node, .buffer ⟨0, width, height, width * 4⟩ alloc),
   (node, .linuxDmabuf ⟨0x34325241, width, height⟩), (node, .bufferDone alloc)]

/-- A capture whose output is resized. -/
def resizedCapture (alloc : Allocation) : List (NodeId × ScreencopyEvent) :=
  (7, .startCapture 1 false) :: offers 7 1920 1080 ⟨.ok 7680, .ok ()⟩ ++
    (7, .ready (.ok ()) true) :: offers 7 1280 720 alloc ++
    (7, .ready (.ok ()) true) :: offers 7 1280 720 alloc ++ [(7, .ready (.ok ()) true)]

theorem coherent_iff_buffersFit_resized :
    let w := Screencopy.bound 3 true true true false true
    let es := resizedCapture ⟨.ok 5120, .ok ()⟩
    screencopyMachine.Along InOrder w es ∧ screencopyMachine.Along BuffersFit w es := by
  intro w es
  have ho : screencopyMachine.Along InOrder w es := by decide +kernel
  have hcoherent : screencopyMachine.Along CoherentStep w es := by decide +kernel
  exact ⟨ho, (coherent_iff_buffersFit 3 true true true false true es ho).mp hcoherent⟩

/-- The output is resized and no new DMA-BUF can be allocated. The frame is copied into the old one;
and when the next frame goes to shared memory, the pixels are still taken from the old DMA-BUF. -/
theorem incoherent_resized :
    let w := Screencopy.bound 3 true true true false true
    let es := resizedCapture ⟨.error "allocate GBM capture buffer", .ok ()⟩
    let old : FrameBuffer := .dmabuf ⟨2, 0x34325241, 1920, 1080, 7680⟩
    let shm : FrameBuffer := .shm ⟨11, 3686400, ⟨0, 1280, 720, 5120⟩⟩
    screencopyMachine.Along InOrder w es ∧ ¬ screencopyMachine.Along CoherentStep w es ∧
      screencopyMachine.trace w es =
        [.captureOutput 7 false 1, .copy 7 old, .destroyFrame 7,
         .deliver 7 (.direct true) old ⟨1920, 1080, 7680, 0⟩,
         .captureOutput 7 false 1, .copy 7 old, .destroyFrame 7,
         .deliver 7 (.direct true) old ⟨1920, 1080, 7680, 0⟩,
         .captureOutput 7 false 1, .copy 7 shm, .destroyFrame 7,
         .deliver 7 (.direct true) old ⟨1920, 1080, 7680, 0⟩,
         .captureOutput 7 false 1] := by
  decide +kernel

end Wayland

end Cheirizo
