import Cheirizo.Bitmap.Converter
import Cheirizo.Clock
import Cheirizo.Lib.Machine
import Mathlib.Data.List.MinMax

/-!
# The buffer pool

The converter takes the buffer for a frame from a pool and gives it back when the frame is
converted. A buffer is only taken from a slot whose index is in the list of free ones, and giving
one back takes an index from that list and fills its slot, but does not put the index back. So a
slot is free as long as it has never had a buffer, and no longer.

## Main definitions

* `BufferPool` — the slots and the free list, with `acquire` and `release`
* `PoolWatch`, `poolMachine` — runs, with a record of the buffers that are handed out
* `Pools` — the slots are accounted for, buffers are large enough and used again

## Main results

* `findReusable_exec` — in no run is a buffer ever taken from the pool
* `along_reuses_iff` — so a run uses buffers again where it should only if it should nowhere
* `pools_iff` — the pool does what it should exactly in the runs without a release that ask for no
  more bytes than a buffer can have
-/

namespace Cheirizo

namespace Bitmap

/-! ### Vectors -/

/-- The largest number of bytes that a vector may have room for. -/
def isizeMax : ℕ := 2 ^ 63 - 1

/-- A vector of bytes, with the bytes it has room for. -/
structure VecU8 where
  data : List UInt8
  capacity : ℕ
  length_le : data.length ≤ capacity
  capacity_le : capacity ≤ isizeMax

namespace VecU8

/-- What is left where a vector is taken away. -/
def empty : VecU8 := ⟨[], 0, le_rfl, Nat.zero_le _⟩

/-- The room is kept. -/
def clear (v : VecU8) : VecU8 := ⟨[], v.capacity, Nat.zero_le _, v.capacity_le⟩

/-- A new vector of zeros; nothing where it would be too long. -/
def zeroed (length : ℕ) : Option VecU8 :=
  if h : length ≤ isizeMax then some ⟨List.replicate length 0, length, by simp, h⟩ else none

/-- The vector cut or filled up with zeros; nothing where it would be too long. -/
def resize (v : VecU8) (length : ℕ) : Option VecU8 :=
  if h : length ≤ isizeMax then
    some ⟨v.data.take length ++ List.replicate (length - v.data.length) 0, max v.capacity length,
      by simp; omega, max_le v.capacity_le h⟩
  else none

end VecU8

/-! ### The pool -/

/-- A buffer that waits in the pool. -/
structure PooledBuffer where
  data : VecU8
  capacity : ℕ
  lastUsed : Instant

/-- The places of the pool, and those of them that may be filled. -/
structure BufferPool where
  buffers : List (Option PooledBuffer)
  freeIndices : List ℕ

/-- The sizes that are made are multiples of this. -/
def rdpBitmapAlignment : ℕ := 64

/-- How many places there are. -/
def bufferPoolSize : ℕ := 8

namespace BufferPool

/-- All places are free. -/
def new (size : ℕ) : BufferPool := ⟨List.replicate size none, List.range size⟩

variable (pool : BufferPool)

/-- The first buffer that has room for the bytes and whose slot is free. -/
def findReusable (size : UInt64) : Option (ℕ × PooledBuffer) :=
  pool.buffers.zipIdx.findSome? fun (slot, idx) =>
    match slot with
    | some buffer =>
      if size.toNat ≤ buffer.capacity ∧ idx ∈ pool.freeIndices then some (idx, buffer) else none
    | none => none

/-- A buffer of the pool, or a new one; nothing where a vector would be too long. The length of a
new one is rounded up, and the product wraps around at the size of an address. -/
def acquire (size : UInt64) (now : Instant) : Option (VecU8 × BufferPool) :=
  match pool.findReusable size with
  | some (idx, buffer) =>
    (buffer.data.resize size.toNat).map fun data => (data, {
      buffers := pool.buffers.set idx (some { buffer with data := .empty, lastUsed := now })
      freeIndices := pool.freeIndices.filter (· ≠ idx) })
  | none =>
    (VecU8.zeroed (alignToBoundary size.toNat rdpBitmapAlignment % 2 ^ 64)).map fun data =>
      (data, pool)

/-- The slot whose buffer has not been used for the longest time, the first of several. -/
def leastRecent : Option ℕ :=
  ((pool.buffers.zipIdx.filterMap fun (slot, idx) => slot.map fun buffer =>
    (idx, buffer.lastUsed)).argmin Prod.snd).map Prod.fst

/-- The slot for a buffer that comes back: the last free one, or else the least recent, or else
the first. -/
def releaseIndex : ℕ := pool.freeIndices.getLast?.getD (pool.leastRecent.getD 0)

/-- The pool with a buffer that comes back; nothing where there is no such slot. -/
def release (buffer : VecU8) (now : Instant) : Option BufferPool :=
  if pool.releaseIndex < pool.buffers.length then
    some {
      buffers := pool.buffers.set pool.releaseIndex (some ⟨buffer.clear, buffer.capacity, now⟩)
      freeIndices := pool.freeIndices.dropLast }
  else none

end BufferPool

/-! ### Runs -/

/-- A pool, with the slots that the buffers handed out were taken from, and the room in those
released since the last one was handed out. -/
structure PoolWatch where
  pool : BufferPool
  held : List (Option ℕ)
  released : List ℕ

/-- What is asked of the pool. -/
inductive PoolCall where
  | acquire (size : UInt64) (now : Instant)
  /-- The buffer comes back that is at a position among those handed out, or one from elsewhere. -/
  | release (position : ℕ) (buffer : VecU8) (now : Instant)

namespace PoolWatch

/-- Nothing was handed out. -/
def start (size : ℕ) : PoolWatch := ⟨.new size, [], []⟩

/-- What is handed out is remembered with the place it came from. -/
def step (s : PoolWatch) : PoolCall → PoolWatch
  | .acquire size now =>
    match s.pool.acquire size now with
    | some (_, pool) =>
      ⟨pool, s.held ++ [(s.pool.findReusable size).map Prod.fst], []⟩
    | none => s
  | .release position buffer now =>
    match s.pool.release buffer now with
    | some pool => ⟨pool, s.held.eraseIdx position, buffer.capacity :: s.released⟩
    | none => s

/-- Every slot is free, or its buffer is handed out, or it has none; and none is both of the
first. -/
def Accounted (s : PoolWatch) : Prop :=
  ∀ idx < s.pool.buffers.length,
    (idx ∈ s.pool.freeIndices ∨ some idx ∈ s.held ∨ s.pool.buffers[idx]? = some none) ∧
      ¬ (idx ∈ s.pool.freeIndices ∧ some idx ∈ s.held)

/-- A call returns, and a buffer that is asked for has the bytes. -/
def Answers (s : PoolWatch) : PoolCall → Prop
  | .acquire size now => ∃ buffer pool, s.pool.acquire size now = some (buffer, pool) ∧
      size.toNat ≤ buffer.data.length
  | .release _ buffer now => s.pool.release buffer now ≠ none

/-- A buffer is asked for, and one with room has been released since the last was. -/
def ExpectsReuse (s : PoolWatch) : PoolCall → Prop
  | .acquire size _ => ∃ capacity ∈ s.released, size.toNat ≤ capacity
  | .release _ _ _ => False

/-- A buffer is taken from the pool where that is expected. -/
def Reuses (s : PoolWatch) : PoolCall → Prop
  | .acquire size now => s.ExpectsReuse (.acquire size now) → s.pool.findReusable size ≠ none
  | .release _ _ _ => True

end PoolWatch

/-- The pool, watched. -/
def poolMachine : Machine PoolWatch PoolCall Unit where
  step s call := (s.step call, [])

/-- The pool of a run does what it should. -/
def Pools (size : ℕ) (calls : List PoolCall) : Prop :=
  poolMachine.Always PoolWatch.Accounted (.start size) calls ∧
    poolMachine.Along PoolWatch.Answers (.start size) calls ∧
    poolMachine.Along PoolWatch.Reuses (.start size) calls

/-- A call for no more bytes than a buffer can have. -/
def PoolCall.IsHarmless : PoolCall → Prop
  | .acquire size _ => size.toNat ≤ 2 ^ 63 - 64
  | .release _ _ _ => False

/-! ### What a free slot has -/

namespace BufferPool

variable {pool pool' : BufferPool} {size : UInt64} {buffer : VecU8} {now : Instant}

/-- Free slots have no buffer, and each is listed once. -/
structure Unpooled (pool : BufferPool) : Prop where
  nodup : pool.freeIndices.Nodup
  empty : ∀ idx ∈ pool.freeIndices, pool.buffers[idx]? = some none

theorem unpooled_new (size : ℕ) : (new size).Unpooled where
  nodup := List.nodup_range
  empty idx h := by
    rw [new, List.getElem?_replicate, if_pos (List.mem_range.mp h)]

theorem Unpooled.findReusable_eq_none (h : pool.Unpooled) (size : UInt64) :
    pool.findReusable size = none := by
  refine List.findSome?_eq_none_iff.mpr fun ⟨slot, idx⟩ hslot => ?_
  cases slot with
  | none => rfl
  | some buffer =>
    refine if_neg fun hfits => ?_
    have hsome := List.mem_zipIdx_iff_getElem?.mp hslot
    cases hsome.symm.trans (h.empty idx hfits.2)

/-- What a release does, where it returns. -/
theorem release_cases (h : pool.release buffer now = some pool') :
    ∃ idx < pool.buffers.length, pool'.buffers =
        pool.buffers.set idx (some ⟨buffer.clear, buffer.capacity, now⟩) ∧
      (pool.freeIndices = pool'.freeIndices ++ [idx] ∨
        pool.freeIndices = [] ∧ pool'.freeIndices = []) := by
  rw [release] at h
  split_ifs at h with hlt
  cases h
  refine ⟨pool.releaseIndex, hlt, rfl, ?_⟩
  obtain hnil | ⟨free, idx, hfree⟩ := List.eq_nil_or_concat pool.freeIndices
  · exact Or.inr ⟨hnil, by simp [hnil]⟩
  · left
    simp [releaseIndex, hfree]

/-- The slot that a release fills is not free. -/
theorem Unpooled.release (h : pool.Unpooled) (hrelease : pool.release buffer now = some pool') :
    pool'.Unpooled ∧ ∃ idx < pool'.buffers.length, idx ∉ pool'.freeIndices ∧
      pool'.buffers[idx]? ≠ some none := by
  obtain ⟨idx, hlt, hbuffers, hfree⟩ := release_cases hrelease
  have hnodup : pool'.freeIndices.Nodup ∧ idx ∉ pool'.freeIndices ∧
      ∀ other ∈ pool'.freeIndices, other ∈ pool.freeIndices := by
    have hall := h.nodup
    obtain hfree | ⟨-, hnil⟩ := hfree
    · rw [hfree, List.nodup_append] at hall
      refine ⟨hall.1, fun hmem => hall.2.2 idx hmem idx List.mem_cons_self rfl, fun _ hmem => ?_⟩
      rw [hfree]
      exact List.mem_append_left _ hmem
    · simp [hnil]
  refine ⟨⟨hnodup.1, fun other hother => ?_⟩, idx, by rwa [hbuffers, List.length_set],
    hnodup.2.1, ?_⟩
  · have hne : idx ≠ other := fun heq => hnodup.2.1 (heq ▸ hother)
    rw [hbuffers, List.getElem?_set_ne hne]
    exact h.empty other (hnodup.2.2 other hother)
  · simp [hbuffers, hlt]

/-- A buffer is new, so it has the bytes if a vector can have them, rounded up. -/
theorem Unpooled.acquire (h : pool.Unpooled) (size : UInt64) (now : Instant) :
    pool.acquire size now =
      (VecU8.zeroed (alignToBoundary size.toNat rdpBitmapAlignment % 2 ^ 64)).map fun data =>
        (data, pool) := by
  rw [BufferPool.acquire, h.findReusable_eq_none]

/-- The rounded number of bytes is one that a vector can have, and enough. -/
theorem exists_acquire_iff (h : pool.Unpooled) (size : UInt64) (now : Instant) :
    (∃ buffer pool', pool.acquire size now = some (buffer, pool') ∧
      size.toNat ≤ buffer.data.length) ↔ size.toNat ≤ 2 ^ 63 - 64 := by
  have hsize := size.toNat_lt
  have hmax : isizeMax = 2 ^ 63 - 1 := rfl
  rw [h.acquire, VecU8.zeroed, alignToBoundary, rdpBitmapAlignment]
  split_ifs with hfits
  · simp only [Option.map_some, Option.some.injEq, Prod.mk.injEq]
    constructor
    · rintro ⟨-, -, ⟨rfl, -⟩, hlength⟩
      rw [List.length_replicate] at hlength
      omega
    · intro hbound
      refine ⟨_, pool, ⟨rfl, rfl⟩, ?_⟩
      rw [List.length_replicate]
      omega
  · simp only [Option.map_none, reduceCtorEq, false_and, exists_false, false_iff]
    omega

end BufferPool

/-! ### What a run does -/

namespace PoolWatch

variable {s : PoolWatch} {call : PoolCall} {calls : List PoolCall} {size : ℕ}

/-- Free slots have no buffer, and every buffer handed out is a new one. -/
structure AllNew (s : PoolWatch) : Prop where
  unpooled : s.pool.Unpooled
  held : ∀ origin ∈ s.held, origin = none

theorem allNew_start (size : ℕ) : (start size).AllNew where
  unpooled := BufferPool.unpooled_new size
  held := by simp [start]

/-- What asking for a buffer does to a run: it returns with a new one, or not at all. -/
theorem AllNew.step_acquire (h : s.AllNew) (bytes : UInt64) (now : Instant) :
    s.step (.acquire bytes now) = ⟨s.pool, s.held ++ [none], []⟩ ∨
      s.step (.acquire bytes now) = s := by
  rw [PoolWatch.step, h.unpooled.acquire, h.unpooled.findReusable_eq_none]
  cases VecU8.zeroed (alignToBoundary bytes.toNat rdpBitmapAlignment % 2 ^ 64) with
  | none => exact Or.inr rfl
  | some data => exact Or.inl rfl

theorem AllNew.step (h : s.AllNew) (call : PoolCall) : (s.step call).AllNew := by
  cases call with
  | acquire bytes now =>
    obtain hnew | hsame := h.step_acquire bytes now
    · rw [hnew]
      exact ⟨h.unpooled, by simpa [or_imp, forall_and] using h.held⟩
    · rwa [hsame]
  | release position buffer now =>
    rw [PoolWatch.step]
    cases hrelease : s.pool.release buffer now with
    | none => exact h
    | some pool =>
      exact ⟨(h.unpooled.release hrelease).1, fun origin horigin =>
        h.held origin (List.mem_of_mem_eraseIdx horigin)⟩

/-- No buffer is taken from the pool, so none may be expected from it. -/
theorem AllNew.reuses_iff (h : s.AllNew) (call : PoolCall) :
    s.Reuses call ↔ ¬ s.ExpectsReuse call := by
  cases call with
  | acquire bytes now =>
    rw [Reuses, h.unpooled.findReusable_eq_none]
    exact imp_congr_right fun _ => iff_of_false (fun hne => hne rfl) not_false
  | release position buffer now => exact iff_of_true trivial not_false

/-- A release that returns leaves a slot that is not accounted for. -/
theorem AllNew.isHarmless (h : s.AllNew) (hanswers : s.Answers call)
    (haccounted : (s.step call).Accounted) : call.IsHarmless := by
  cases call with
  | acquire size now => exact (BufferPool.exists_acquire_iff h.unpooled size now).mp hanswers
  | release position buffer now =>
    obtain ⟨pool, hrelease⟩ := Option.ne_none_iff_exists'.mp hanswers
    obtain ⟨-, idx, hlt, hfree, hfilled⟩ := h.unpooled.release hrelease
    rw [PoolWatch.step, hrelease] at haccounted
    obtain hmem | hheld | hempty := (haccounted idx hlt).1
    · exact hfree hmem
    · cases h.held _ (List.mem_of_mem_eraseIdx hheld)
    · exact hfilled hempty

theorem AllNew.isHarmless_of_mem (h : s.AllNew)
    (haccounted : poolMachine.Always Accounted s calls)
    (hanswers : poolMachine.Along Answers s calls) : ∀ call ∈ calls, call.IsHarmless := by
  induction calls generalizing s with
  | nil => simp
  | cons call calls ih =>
    refine List.forall_mem_cons.mpr ⟨h.isHarmless hanswers.1 haccounted.2.head, ?_⟩
    exact ih (h.step call) haccounted.2 hanswers.2

/-- Nothing has been released yet. -/
structure Untouched (size : ℕ) (s : PoolWatch) : Prop where
  pool : s.pool = .new size
  held : ∀ origin ∈ s.held, origin = none
  released : s.released = []

theorem untouched_start (size : ℕ) : (start size).Untouched size where
  pool := rfl
  held := by simp [start]
  released := rfl

theorem Untouched.allNew (h : s.Untouched size) : s.AllNew where
  unpooled := h.pool ▸ BufferPool.unpooled_new size
  held := h.held

theorem Untouched.step (h : s.Untouched size) (hcall : call.IsHarmless) :
    (s.step call).Untouched size := by
  cases call with
  | release position buffer now => exact hcall.elim
  | acquire bytes now =>
    have hheld := (h.allNew.step (.acquire bytes now)).held
    obtain hnew | hsame := h.allNew.step_acquire bytes now
    · rw [hnew] at hheld ⊢
      exact ⟨h.pool, hheld, rfl⟩
    · rwa [hsame]

theorem Untouched.accounted (h : s.Untouched size) : s.Accounted := by
  intro idx hlt
  rw [h.pool, BufferPool.new, List.length_replicate] at hlt
  refine ⟨Or.inl ?_, fun hboth => ?_⟩
  · rw [h.pool]
    exact List.mem_range.mpr hlt
  · cases h.held _ hboth.2

theorem Untouched.answers (h : s.Untouched size) (hcall : call.IsHarmless) : s.Answers call := by
  cases call with
  | release position buffer now => exact hcall.elim
  | acquire bytes now =>
    exact (BufferPool.exists_acquire_iff h.allNew.unpooled bytes now).mpr hcall

theorem Untouched.reuses (h : s.Untouched size) (call : PoolCall) : s.Reuses call := by
  refine (h.allNew.reuses_iff call).mpr fun hexpects => ?_
  cases call with
  | acquire bytes now =>
    obtain ⟨capacity, hcapacity, -⟩ := hexpects
    rw [h.released] at hcapacity
    cases hcapacity
  | release position buffer now => exact hexpects

end PoolWatch

/-- In no run is a buffer ever taken from the pool. -/
theorem findReusable_exec (poolSize : ℕ) (calls : List PoolCall) (size : UInt64) :
    (poolMachine.exec (.start poolSize) calls).pool.findReusable size = none := by
  have hrun : (poolMachine.exec (.start poolSize) calls).AllNew :=
    Machine.exec_invariant (fun _ call h _ => h.step call) (PoolWatch.allNew_start poolSize)
      poolMachine.along_true
  exact hrun.unpooled.findReusable_eq_none size

/-- A run uses buffers again where that is expected exactly if it is expected nowhere. -/
theorem along_reuses_iff (size : ℕ) (calls : List PoolCall) :
    poolMachine.Along PoolWatch.Reuses (.start size) calls ↔
      poolMachine.Along (fun s call => ¬ s.ExpectsReuse call) (.start size) calls :=
  Machine.along_congr_of_invariant (fun _ call h _ => h.reuses_iff call)
    (fun _ call h _ _ => h.step call) (PoolWatch.allNew_start size) poolMachine.along_true

/-- **What the pool is good for.** It does what it should exactly in the runs in which nothing is
released and no buffer is asked for that is too long. -/
theorem pools_iff (size : ℕ) (calls : List PoolCall) :
    Pools size calls ↔ ∀ call ∈ calls, call.IsHarmless := by
  constructor
  · rintro ⟨haccounted, hanswers, -⟩
    exact (PoolWatch.allNew_start size).isHarmless_of_mem haccounted hanswers
  · intro hcalls
    have hstart := PoolWatch.untouched_start size
    have halong := poolMachine.along_of_forall (s := .start size) hcalls
    have hstep (s : PoolWatch) (call : PoolCall) (h : s.Untouched size)
        (hc : call.IsHarmless) : (poolMachine.step s call).1.Untouched size := h.step hc
    refine ⟨?_, ?_, ?_⟩
    · exact Machine.always_of_invariant hstep (fun _ h => h.accounted) hstart halong
    · exact halong.of_invariant hstep (fun _ _ h hc => h.answers hc) hstart
    · exact halong.of_invariant hstep (fun _ call h _ => h.reuses call) hstart

/-- The buffer that has come back is not used again. -/
theorem not_pools_release :
    ¬ Pools bufferPoolSize [.acquire 64 0,
      .release 0 ⟨List.replicate 64 0, 64, by decide, by decide⟩ 1, .acquire 64 2] := by
  rintro ⟨-, -, -, -, hreuses, -⟩
  exact hreuses ⟨64, List.mem_cons_self, by decide⟩ rfl

end Bitmap

end Cheirizo
