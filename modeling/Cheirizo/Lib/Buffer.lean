import Mathlib.Data.List.GetD

/-!
# Buffers with checked access

Code that reads and writes a buffer through indices stops at the first one that is out of bounds.
Here a piece of such code is a function that answers `none` where it stops. What it does otherwise
is said by one predicate: `Writes n f A val` means that on a buffer of `n` cells `f` gets through,
puts `val i` into each cell `i` in `A` and leaves the others as they are.

The values are given once for the whole buffer. So two pieces of code that write parts of one
picture add up however the parts lie, whether they overlap or leave gaps: the loop rule
`Writes.foldlM` asks of each turn only that what it writes is a part of that picture.

## Main definitions

* `put`, `copyInto` — write one cell, or a block
* `suffix`, `slice` — a part of a buffer
* `Writes` — what a piece of code writes

## Main results

* `Writes.bind`, `Writes.foldlM` — sequences and loops
* `writes_put`, `writes_copyInto` — the single writes
* `foldlM_eq_none` — a loop with a turn that never gets through does not either
* `writes_raster` — the loop over the rows and columns of a picture
-/

namespace Cheirizo

namespace Buffer

variable {α κ : Type*}

/-! ### Access -/

/-- `l[i] = a` -/
def put (l : List α) (i : ℕ) (a : α) : Option (List α) :=
  if i < l.length then some (l.set i a) else none

/-- `&l[start..]` -/
def suffix (l : List α) (start : ℕ) : Option (List α) :=
  if start ≤ l.length then some (l.drop start) else none

/-- `&l[start..stop]` -/
def slice (l : List α) (start stop : ℕ) : Option (List α) :=
  if start ≤ stop ∧ stop ≤ l.length then some ((l.take stop).drop start) else none

/-- `l[start..start + block.len()].copy_from_slice(block)` -/
def copyInto (l : List α) (start : ℕ) (block : List α) : Option (List α) :=
  if start + block.length ≤ l.length then
    some (l.take start ++ block ++ l.drop (start + block.length))
  else none

theorem getElem?_copyInto {l l' block : List α} {start : ℕ} (h : copyInto l start block = some l') :
    l'.length = l.length ∧
      ∀ i, l'[i]? = if start ≤ i ∧ i < start + block.length then block[i - start]? else l[i]? := by
  rw [copyInto] at h
  split at h
  · rename_i hfits
    cases h
    refine ⟨?_, fun i => ?_⟩
    · simp only [List.length_append, List.length_take, List.length_drop]
      omega
    · have htake : (l.take start).length = start := by
        rw [List.length_take]
        omega
      rw [List.append_assoc]
      by_cases hlow : i < start
      · rw [List.getElem?_append_left (by omega), List.getElem?_take_of_lt hlow, if_neg (by omega)]
      · rw [List.getElem?_append_right (by omega), htake]
        by_cases hin : i < start + block.length
        · rw [List.getElem?_append_left (by omega), if_pos ⟨by omega, hin⟩]
        · rw [List.getElem?_append_right (by omega), List.getElem?_drop, if_neg (by omega)]
          congr 1
          omega
  · cases h

theorem getElem?_slice {l l' : List α} {start stop : ℕ} (h : slice l start stop = some l') :
    l'.length = stop - start ∧ ∀ i, i < stop - start → l'[i]? = l[start + i]? := by
  rw [slice] at h
  split at h
  · cases h
    refine ⟨?_, fun i hi => ?_⟩
    · rw [List.length_drop, List.length_take]
      omega
    · rw [List.getElem?_drop, List.getElem?_take_of_lt (by omega)]
  · cases h

/-- A slice that fits. -/
theorem exists_slice {l : List α} {start count : ℕ} (h : start + count ≤ l.length) :
    ∃ l', slice l start (start + count) = some l' ∧ l'.length = count ∧
      ∀ i < count, l'[i]? = l[start + i]? := by
  have hsome : slice l start (start + count) = some ((l.take (start + count)).drop start) :=
    if_pos ⟨Nat.le_add_right _ _, h⟩
  obtain ⟨hlength, hcells⟩ := getElem?_slice hsome
  rw [Nat.add_sub_cancel_left] at hlength hcells
  exact ⟨_, hsome, hlength, hcells⟩

/-! ### What is written -/

/-- On `n` cells `f` gets through and puts `val` into the cells in `A`. -/
structure Writes (n : ℕ) (f : List α → Option (List α)) (A : ℕ → Prop) (val : ℕ → α) : Prop where
  run : ∀ l : List α, l.length = n → ∃ l', f l = some l' ∧ l'.length = n ∧
    ∀ i, (A i → l'[i]? = some (val i)) ∧ (¬ A i → l'[i]? = l[i]?)

namespace Writes

variable {n : ℕ} {f g : List α → Option (List α)} {A B : ℕ → Prop} {val val' : ℕ → α}

/-- Writing nothing. -/
theorem nothing (n : ℕ) (val : ℕ → α) : Writes n some (fun _ => False) val where
  run l hl := ⟨l, rfl, hl, fun _ => ⟨False.elim, fun _ => rfl⟩⟩

/-- Only the cells that are written count. -/
theorem congr (h : Writes n f A val) (hA : ∀ i, A i ↔ B i) (hval : ∀ i, A i → val i = val' i) :
    Writes n f B val' where
  run l hl := by
    obtain ⟨l', hf, hlength, hcells⟩ := h.run l hl
    refine ⟨l', hf, hlength, fun i => ⟨fun hi => ?_, fun hi => ?_⟩⟩
    · have hi : A i := (hA i).mpr hi
      rw [(hcells i).1 hi, hval i hi]
    · exact (hcells i).2 fun hA' => hi ((hA i).mp hA')

/-- Only buffers of the right size count. -/
theorem of_eq (h : Writes n g A val) (hfg : ∀ l : List α, l.length = n → f l = g l) :
    Writes n f A val where
  run l hl := hfg l hl ▸ h.run l hl

/-- **What is written adds up.** -/
theorem bind (hf : Writes n f A val) (hg : Writes n g B val) :
    Writes n (fun l => f l >>= g) (fun i => A i ∨ B i) val where
  run l hl := by
    obtain ⟨l₁, hf₁, hlength₁, hcells₁⟩ := hf.run l hl
    obtain ⟨l₂, hg₂, hlength₂, hcells₂⟩ := hg.run l₁ hlength₁
    refine ⟨l₂, by rw [hf₁]; exact hg₂, hlength₂, fun i => ⟨fun hi => ?_, fun hi => ?_⟩⟩
    · by_cases hB : B i
      · exact (hcells₂ i).1 hB
      · rw [(hcells₂ i).2 hB]
        exact (hcells₁ i).1 (hi.resolve_right hB)
    · rw [not_or] at hi
      rw [(hcells₂ i).2 hi.2, (hcells₁ i).2 hi.1]

/-- **Loops.** Each turn writes its part of the one picture. -/
theorem foldlM {step : List α → κ → Option (List α)} {part : κ → ℕ → Prop} {ks : List κ}
    (h : ∀ k ∈ ks, Writes n (fun l => step l k) (part k) val) :
    Writes n (fun l => ks.foldlM step l) (fun i => ∃ k ∈ ks, part k i) val := by
  induction ks with
  | nil => exact (nothing n val).congr (fun i => by simp) fun _ => False.elim
  | cons k ks ih =>
    have hfirst := h k (List.mem_cons_self ..)
    have hrest := ih fun k' hk' => h k' (List.mem_cons_of_mem _ hk')
    refine ((hfirst.bind hrest).congr (fun i => ?_) fun _ _ => rfl).of_eq fun l _ =>
      List.foldlM_cons
    simp only [List.mem_cons, or_and_right, exists_or, exists_eq_left]

/-- The result, where everything is written. -/
theorem eq_some (h : Writes n f A val) {l : List α} (hl : l.length = n) :
    ∃ l', f l = some l' ∧ l'.length = n ∧ ∀ i, A i → l'[i]? = some (val i) := by
  obtain ⟨l', hf, hlength, hcells⟩ := h.run l hl
  exact ⟨l', hf, hlength, fun i => (hcells i).1⟩

/-- Two ways to write a whole buffer cannot be told apart. -/
theorem ext (hf : Writes n f A val) (hg : Writes n g A val) (hA : ∀ i < n, A i) {l l' : List α}
    (hl : l.length = n) (hl' : l'.length = n) : ∃ out, f l = some out ∧ g l' = some out := by
  obtain ⟨out, hout, hlength, hcells⟩ := hf.eq_some hl
  obtain ⟨out', hout', hlength', hcells'⟩ := hg.eq_some hl'
  have hsame : out = out' := by
    apply List.ext_getElem?
    intro i
    by_cases hi : i < n
    · rw [hcells i (hA i hi), hcells' i (hA i hi)]
    · rw [List.getElem?_eq_none (by omega), List.getElem?_eq_none (by omega)]
  exact ⟨out, hout, hsame ▸ hout'⟩

end Writes

theorem writes_put {n i : ℕ} {a : α} {val : ℕ → α} (hi : i < n) (hval : val i = a) :
    Writes n (fun l => put l i a) (fun j => j = i) val where
  run l hl := by
    refine ⟨l.set i a, if_pos (hl ▸ hi), List.length_set.trans hl, fun j => ⟨?_, fun hj => ?_⟩⟩
    · rintro rfl
      rw [List.getElem?_set_self (hl ▸ hi), hval]
    · exact List.getElem?_set_ne fun hij => hj hij.symm

theorem writes_copyInto {n start : ℕ} {block : List α} {val : ℕ → α}
    (hfits : start + block.length ≤ n)
    (hval : ∀ k (hk : k < block.length), val (start + k) = block[k]) :
    Writes n (fun l => copyInto l start block)
      (fun i => start ≤ i ∧ i < start + block.length) val where
  run l hl := by
    have hsome : copyInto l start block =
        some (l.take start ++ block ++ l.drop (start + block.length)) := if_pos (hl ▸ hfits)
    obtain ⟨hlength, hcells⟩ := getElem?_copyInto hsome
    refine ⟨_, hsome, hlength.trans hl, fun i => ⟨fun hi => ?_, fun hi => ?_⟩⟩
    · obtain ⟨k, rfl⟩ := Nat.exists_eq_add_of_le hi.1
      have hk : k < block.length := by omega
      rw [hcells, if_pos hi, Nat.add_sub_cancel_left, hval k hk, List.getElem?_eq_getElem hk]
    · rw [hcells, if_neg hi]

/-- A turn that never gets through ends the loop. -/
theorem foldlM_eq_none {σ : Type*} {step : σ → κ → Option σ} {ks : List κ} {k : κ} (hk : k ∈ ks)
    (h : ∀ s, step s k = none) (s : σ) : ks.foldlM step s = none := by
  induction ks generalizing s with
  | nil => cases hk
  | cons k' ks ih =>
    rw [List.foldlM_cons]
    cases hstep : step s k' with
    | none => rfl
    | some s' =>
      obtain rfl | hk := List.mem_cons.mp hk
      · rw [h] at hstep
        cases hstep
      · exact ih hk s'

/-- A loop whose turns keep the length keeps it. -/
theorem length_foldlM {step : List α → κ → Option (List α)}
    (h : ∀ l k l', step l k = some l' → l'.length = l.length) {ks : List κ} {l l' : List α}
    (hrun : ks.foldlM step l = some l') : l'.length = l.length := by
  induction ks generalizing l with
  | nil =>
    cases hrun
    rfl
  | cons k ks ih =>
    rw [List.foldlM_cons] at hrun
    obtain ⟨l₁, hstep, hrest⟩ := Option.bind_eq_some_iff.mp hrun
    exact (ih hrest).trans (h l k l₁ hstep)

/-! ### Rasters -/

/-- The cells of an element of a raster whose rows are `s` apart and whose elements take `b`. -/
def pixelAt (l : List α) (s b x y : ℕ) : List α :=
  (l.drop (y * s + x * b)).take b

/-- The picture with the given cells in its rows. -/
def rowVal (s : ℕ) (cell : ℕ → ℕ → α) (i : ℕ) : α :=
  cell (i % s) (i / s)

/-- The cells of the elements in a `w` by `h` corner. -/
def InRaster (s b w h : ℕ) (i : ℕ) : Prop :=
  ∃ y < h, ∃ x < w, ∃ c < b, i = y * s + (x * b + c)

section Raster

variable {s b w h x y c : ℕ}

/-- An element ends before the next one begins. -/
theorem raster_le (hx : x < w) : x * b + b ≤ w * b :=
  calc x * b + b = (x + 1) * b := (Nat.succ_mul x b).symm
    _ ≤ w * b := Nat.mul_le_mul_right b hx

theorem raster_lt (hx : x < w) (hc : c < b) : x * b + c < w * b :=
  Nat.lt_of_lt_of_le (Nat.add_lt_add_left hc _) (raster_le hx)

theorem rowVal_apply {cell : ℕ → ℕ → α} {k : ℕ} (hk : k < s) :
    rowVal s cell (y * s + k) = cell k y := by
  have hrow : (y * s + k) / s = y := by
    rw [Nat.mul_comm, Nat.mul_add_div (by omega), Nat.div_eq_of_lt hk, Nat.add_zero]
  have hcol : (y * s + k) % s = k := by
    rw [Nat.mul_comm, Nat.mul_add_mod, Nat.mod_eq_of_lt hk]
  rw [rowVal, hrow, hcol]

theorem raster_div (hc : c < b) : (x * b + c) / b = x := by
  rw [Nat.mul_comm, Nat.mul_add_div (by omega), Nat.div_eq_of_lt hc, Nat.add_zero]

theorem raster_mod (hc : c < b) : (x * b + c) % b = c := by
  rw [Nat.mul_comm, Nat.mul_add_mod, Nat.mod_eq_of_lt hc]

/-- A block within a row. -/
theorem writes_copyInto_row {n start : ℕ} {block : List α} {cell : ℕ → ℕ → α}
    (hrow : start + block.length ≤ s) (hfits : y * s + (start + block.length) ≤ n)
    (hcell : ∀ c (hc : c < block.length), cell (start + c) y = block[c]) :
    Writes n (fun l => copyInto l (y * s + start) block)
      (fun i => ∃ c < block.length, i = y * s + (start + c)) (rowVal s cell) := by
  have hcopy : Writes n (fun l => copyInto l (y * s + start) block)
      (fun i => y * s + start ≤ i ∧ i < y * s + start + block.length) (rowVal s cell) := by
    refine writes_copyInto (by omega) fun c hc => ?_
    rw [Nat.add_assoc, rowVal_apply (by omega), hcell c hc]
  refine hcopy.congr (fun i => ⟨fun hi => ?_, ?_⟩) fun _ _ => rfl
  · exact ⟨i - (y * s + start), by omega, by omega⟩
  · rintro ⟨c, hc, rfl⟩
    omega

/-- Without gaps between the rows every cell belongs to an element. -/
theorem inRaster_of_lt {i : ℕ} (hi : i < h * (w * b)) : InRaster (w * b) b w h i := by
  have hs : 0 < w * b := Nat.pos_of_ne_zero fun hzero => by
    rw [hzero, Nat.mul_zero] at hi
    omega
  have hb : 0 < b := Nat.pos_of_mul_pos_left hs
  refine ⟨i / (w * b), Nat.div_lt_of_lt_mul (Nat.mul_comm h _ ▸ hi), i % (w * b) / b,
    Nat.div_lt_of_lt_mul (Nat.mul_comm w b ▸ Nat.mod_lt i hs), i % (w * b) % b,
    Nat.mod_lt _ hb, ?_⟩
  rw [Nat.div_add_mod', Nat.div_add_mod']

theorem getElem?_pixelAt (l : List α) (hc : c < b) :
    (pixelAt l s b x y)[c]? = l[y * s + (x * b + c)]? := by
  rw [pixelAt, List.getElem?_take_of_lt hc, List.getElem?_drop, Nat.add_assoc]

/-- Elements with the same cells are the same. -/
theorem pixelAt_congr {l l' : List α} {s' x' y' : ℕ}
    (h : ∀ c < b, l[y * s + (x * b + c)]? = l'[y' * s' + (x' * b + c)]?) :
    pixelAt l s b x y = pixelAt l' s' b x' y' := by
  apply List.ext_getElem?
  intro c
  by_cases hc : c < b
  · rw [getElem?_pixelAt l hc, getElem?_pixelAt l' hc, h c hc]
  · have hnone : ∀ l : List α, ∀ s x y, (pixelAt l s b x y)[c]? = none := fun l s x y => by
      rw [pixelAt, List.getElem?_take_eq_none (Nat.le_of_not_lt hc)]
    rw [hnone, hnone]

/-- **A picture, element by element.** -/
theorem writes_raster {n : ℕ} {val : ℕ → α} {turn : ℕ → ℕ → List α → Option (List α)}
    (hturn : ∀ y < h, ∀ x < w,
      Writes n (turn y x) (fun i => ∃ c < b, i = y * s + (x * b + c)) val) :
    Writes n (fun l => (List.range h).foldlM (fun l y =>
      (List.range w).foldlM (fun l x => turn y x l) l) l) (InRaster s b w h) val := by
  have hrow : ∀ y ∈ List.range h, Writes n
      (fun l => (List.range w).foldlM (fun l x => turn y x l) l)
      (fun i => ∃ x ∈ List.range w, ∃ c < b, i = y * s + (x * b + c)) val := by
    intro y hy
    exact Writes.foldlM fun x hx =>
      hturn y (List.mem_range.mp hy) x (List.mem_range.mp hx)
  refine (Writes.foldlM hrow).congr (fun i => ?_) fun _ _ => rfl
  simp only [InRaster, List.mem_range]

end Raster

end Buffer

end Cheirizo
