import Mathlib.Data.List.GetD

/-!
# Filling a buffer

Loops that write consecutive parts of a buffer. What such a loop does is said by one predicate:
`Fills S read f a b val` means that `f` writes the cells from `a` up to `b` with `val` and leaves
all others alone. It holds of single writes, and adjacent parts add up, over sequences and over
loops. Two ways to fill the same cells with the same values cannot be told apart.

The buffer is anything with numbered cells, `read`; `S` is what the writes rely on and keep, such as
its size.

## Main definitions

* `overwrite` — replace a block of a list
* `Fills` — what a piece of code writes

## Main results

* `fills_overwrite` — a block write
* `Fills.trans`, `Fills.range'` — sequences and loops
-/

namespace Cheirizo

/-- Replace the `w` elements from `base` on. -/
def overwrite {α : Type*} (l : List α) (base w : ℕ) (block : ℕ → α) : List α :=
  l.mapIdx fun i x => if base ≤ i ∧ i < base + w then block (i - base) else x

/-- `f` writes the cells from `a` up to `b` with `val`, and no others. -/
structure Fills {σ β : Type*} (S : σ → Prop) (read : σ → ℕ → β) (f : σ → σ) (a b : ℕ)
    (val : ℕ → β) : Prop where
  keeps : ∀ s, S s → S (f s)
  read_eq : ∀ s, S s → ∀ i, read (f s) i = if a ≤ i ∧ i < b then val i else read s i

namespace Fills

variable {σ β : Type*} {S : σ → Prop} {read : σ → ℕ → β} {f g : σ → σ} {a b c : ℕ}
  {val val' : ℕ → β}

/-- Only the values within the part count. -/
theorem congr (h : Fills S read f a b val) (hval : ∀ i, a ≤ i → i < b → val i = val' i) :
    Fills S read f a b val' where
  keeps := h.keeps
  read_eq := by
    intro s hs i
    rw [h.read_eq s hs i]
    split
    · rename_i hi
      exact hval i hi.1 hi.2
    · rfl

/-- Only states the writes are meant for count. -/
theorem of_eq (hg : Fills S read g a b val) (h : ∀ s, S s → f s = g s) :
    Fills S read f a b val where
  keeps s hs := h s hs ▸ hg.keeps s hs
  read_eq := by
    intro s hs i
    rw [h s hs]
    exact hg.read_eq s hs i

theorem id (a : ℕ) (val : ℕ → β) : Fills S read (fun s => s) a a val where
  keeps _ hs := hs
  read_eq := by
    intro s _ i
    rw [if_neg (by omega)]

/-- **Adjacent parts add up.** -/
theorem trans (hf : Fills S read f a b val) (hg : Fills S read g b c val) (hab : a ≤ b)
    (hbc : b ≤ c) : Fills S read (fun s => g (f s)) a c val where
  keeps s hs := hg.keeps _ (hf.keeps s hs)
  read_eq := by
    intro s hs i
    rw [hg.read_eq _ (hf.keeps s hs), hf.read_eq s hs]
    by_cases hi : i < b
    · rw [if_neg (by omega)]
      by_cases ha : a ≤ i
      · rw [if_pos ⟨ha, hi⟩, if_pos ⟨ha, by omega⟩]
      · rw [if_neg (by omega), if_neg (by omega)]
    · by_cases hc : i < c
      · rw [if_pos ⟨by omega, hc⟩, if_pos ⟨by omega, hc⟩]
      · rw [if_neg (by omega), if_neg (by omega), if_neg (by omega)]

/-- **Loops.** If turn `g` fills block `g` of size `w`, then the loop fills all its blocks. -/
theorem range' {step : ℕ → σ → σ} {offset w : ℕ} (start count : ℕ)
    (h : ∀ g, start ≤ g → g < start + count →
      Fills S read (step g) (offset + w * g) (offset + w * (g + 1)) val) :
    Fills S read (fun s => (List.range' start count).foldl (fun s g => step g s) s)
      (offset + w * start) (offset + w * (start + count)) val := by
  induction count generalizing start with
  | zero => exact Fills.id _ _
  | succ count ih =>
    have hfirst := h start (Nat.le_refl _) (by omega)
    have hrest := ih (start + 1) fun g hle hlt => h g (by omega) (by omega)
    have hend : start + 1 + count = start + (count + 1) := by omega
    rw [hend] at hrest
    refine hfirst.trans hrest ?_ ?_
    · exact Nat.add_le_add_left (Nat.mul_le_mul_left w (by omega)) offset
    · exact Nat.add_le_add_left (Nat.mul_le_mul_left w (by omega)) offset

theorem range {step : ℕ → σ → σ} {offset w : ℕ} (count : ℕ)
    (h : ∀ g, g < count →
      Fills S read (step g) (offset + w * g) (offset + w * (g + 1)) val) :
    Fills S read (fun s => (List.range count).foldl (fun s g => step g s) s)
      offset (offset + w * count) val := by
  have hloop := range' 0 count fun g _ hlt => h g (by omega)
  rwa [Nat.mul_zero, Nat.add_zero, Nat.zero_add, ← List.range_eq_range'] at hloop

end Fills

/-! ### Lists -/

section Lists

variable {α : Type*}

@[simp] theorem length_overwrite (l : List α) (base w : ℕ) (block : ℕ → α) :
    (overwrite l base w block).length = l.length :=
  List.length_mapIdx

theorem getD_overwrite (l : List α) {base w : ℕ} (block : ℕ → α) (d : α)
    (hfits : base + w ≤ l.length) (i : ℕ) :
    (overwrite l base w block).getD i d =
      if base ≤ i ∧ i < base + w then block (i - base) else l.getD i d := by
  rw [List.getD_eq_getElem?_getD, overwrite, List.getElem?_mapIdx, List.getD_eq_getElem?_getD]
  by_cases hi : i < l.length
  · rw [List.getElem?_eq_getElem hi]
    rfl
  · rw [List.getElem?_eq_none (by omega), if_neg (by omega)]
    rfl

/-- A list of `n` elements. -/
def HasLength (n : ℕ) (l : List α) : Prop := l.length = n

/-- A block write fills its block. -/
theorem fills_overwrite {n base w : ℕ} (hfits : base + w ≤ n) (block : ℕ → α) (d : α) :
    Fills (HasLength n) (fun l i => l.getD i d) (fun l => overwrite l base w block) base (base + w)
      fun i => block (i - base) where
  keeps _ hl := (length_overwrite ..).trans hl
  read_eq _ hl := getD_overwrite _ block d (Nat.le_trans hfits (Nat.le_of_eq hl.symm))

/-- What fills the whole list determines it. -/
theorem Fills.list {n : ℕ} {d : α} {f : List α → List α} {val : ℕ → α}
    (h : Fills (HasLength n) (fun l i => l.getD i d) f 0 n val) {l : List α} (hl : l.length = n) :
    (f l).length = n ∧ ∀ i < n, (f l).getD i d = val i := by
  refine ⟨h.keeps l hl, fun i hi => ?_⟩
  rw [h.read_eq l hl, if_pos ⟨Nat.zero_le i, hi⟩]

theorem ext_getD {l l' : List α} {n : ℕ} (hl : l.length = n) (hl' : l'.length = n) (d : α)
    (h : ∀ i < n, l.getD i d = l'.getD i d) : l = l' := by
  apply List.ext_getElem (hl.trans hl'.symm)
  intro i hi hi'
  calc l[i] = l.getD i d := (List.getD_eq_getElem l d hi).symm
    _ = l'.getD i d := h i (hl ▸ hi)
    _ = l'[i] := List.getD_eq_getElem l' d hi'

/-- Rows of one length, one after the other. -/
theorem flatMap_range_rows {row : ℕ → List α} {w count : ℕ}
    (hrow : ∀ r < count, (row r).length = w) (d : α) :
    ((List.range count).flatMap row).length = w * count ∧
      ∀ i < w * count,
        ((List.range count).flatMap row).getD i d = (row (i / w)).getD (i % w) d := by
  induction count with
  | zero => exact ⟨rfl, fun i hi => absurd hi (Nat.not_lt_zero i)⟩
  | succ count ih =>
    obtain ⟨hlength, hcells⟩ := ih fun r hr => hrow r (Nat.lt_succ_of_lt hr)
    rw [List.range_succ, List.flatMap_append, List.flatMap_singleton, Nat.mul_succ]
    constructor
    · rw [List.length_append, hlength, hrow count (Nat.lt_succ_self count)]
    · intro i hi
      by_cases hold : i < w * count
      · rw [List.getD_append _ _ _ _ (hlength ▸ hold)]
        exact hcells i hold
      · obtain ⟨j, rfl⟩ := Nat.exists_eq_add_of_le (Nat.le_of_not_lt hold)
        have hj : j < w := by omega
        rw [List.getD_append_right _ _ _ _ (by omega), hlength, Nat.add_sub_cancel_left,
          Nat.mul_add_div (by omega), Nat.div_eq_of_lt hj, Nat.add_zero, Nat.mul_add_mod,
          Nat.mod_eq_of_lt hj]

end Lists

end Cheirizo
