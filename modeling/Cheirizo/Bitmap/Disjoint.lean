import Cheirizo.Bitmap.Narrowing
import Cheirizo.Lib.Hull
import Cheirizo.Lib.Machine
import Mathlib.Order.Lattice.Nat

/-!
# Rectangles that are sent once

The damage tracker merges a rectangle into the first that it meets and then consolidates the list,
so that no pixel is sent twice. Nothing that was added gets lost, but a rectangle that grows is not
compared again with those that it has passed, and one of these may meet it now.

## Main definitions

* `Rectangle.box` — the sides of a rectangle
* `DamageWatch` — a tracker and the rectangles added since the last reset
* `DamageTracker.Settles` — adding a rectangle makes none grow into one that it has passed

## Main results

* `Rectangle.box_merge` — a merged rectangle is the smallest around both
* `regions_disjoint_iff` — the rectangles to be sent are disjoint along exactly the runs of which
  each step settles, and every rectangle that was added is within one of them
-/

namespace Cheirizo

namespace Bitmap

open Merge

namespace Rectangle

variable {r s t : Rectangle}

/-- The sides of a rectangle. -/
def box (r : Rectangle) : Box ℕ := ⟨r.left.toNat, r.top.toNat, r.right.toNat, r.bottom.toNat⟩

theorem box_merge (r s : Rectangle) : (r.merge s).box = r.box ⊔ s.box :=
  Box.ext (toNat_min _ _) (toNat_min _ _) (toNat_max _ _) (toNat_max _ _)

theorem intersects_iff : r.intersects s = true ↔
    s.left.toNat < r.right.toNat ∧ r.left.toNat < s.right.toNat ∧
      s.top.toNat < r.bottom.toNat ∧ r.top.toNat < s.bottom.toNat := by
  simp only [intersects, Bool.not_eq_true', Bool.or_eq_false_iff, decide_eq_false_iff_not,
    UInt16.le_iff_toNat_le, not_le, and_assoc]

theorem intersects_comm (r s : Rectangle) : r.intersects s = s.intersects r := by
  rw [Bool.eq_iff_iff, intersects_iff, intersects_iff]
  omega

/-- A rectangle that has grown meets at least what it met before. -/
theorem intersects_merge (r s t : Rectangle) (h : r.intersects t = true) :
    (r.merge s).intersects t = true := by
  rw [intersects_iff] at h ⊢
  simp only [merge, toNat_min, toNat_max]
  omega

end Rectangle

/-- A tracker, and the rectangles added since the last reset. -/
structure DamageWatch where
  tracker : DamageTracker
  added : List Rectangle
  deriving DecidableEq, Repr

/-- What is asked of the tracker. -/
inductive DamageCall where
  | addDamage (region : Rectangle)
  | reset
  deriving DecidableEq, Repr

namespace DamageTracker

/-- The whole screen is sent, or adding the rectangle makes none grow into one that it has
passed. -/
def Settles (t : DamageTracker) (region : Rectangle) : Prop :=
  t.fullUpdate = true ∨ t.totalArea = 0 ∨ exceedsThreshold region.area t.totalArea = true ∨
    Admits Rectangle.intersects Rectangle.merge region t.regions

end DamageTracker

namespace DamageWatch

/-- A tracker just made. -/
def start (width height : UInt16) : DamageWatch := ⟨.new width height, []⟩

/-- What was added since the last reset is remembered. -/
def step (s : DamageWatch) : DamageCall → DamageWatch
  | .addDamage region => ⟨s.tracker.addDamage region, region :: s.added⟩
  | .reset => ⟨s.tracker.reset, []⟩

/-- No two rectangles meet. -/
def Disjoint (s : DamageWatch) : Prop := Apart s.tracker.regions

/-- Every rectangle added is within one that will be sent, or the whole screen is. -/
def Contained (s : DamageWatch) : Prop :=
  s.tracker.fullUpdate = true ∨ ∀ r ∈ s.added, ∃ q ∈ s.tracker.regions, r.box ≤ q.box

/-- The call makes no rectangle grow into one that it has passed. -/
def Settles (s : DamageWatch) : DamageCall → Prop
  | .addDamage region => s.tracker.Settles region
  | .reset => True

end DamageWatch

/-- A tracker, one call after the other. -/
def damageMachine : Machine DamageWatch DamageCall Unit where
  step s call := (s.step call, [])

namespace DamageWatch

variable {s : DamageWatch} {call : DamageCall}

theorem contained_step (h : s.Contained) (call : DamageCall) : (s.step call).Contained := by
  cases call with
  | reset => exact Or.inr fun r hr => absurd hr List.not_mem_nil
  | addDamage region =>
    have hmem : ∀ a b p : Rectangle, p.box ≤ a.box ∨ p.box ≤ b.box → p.box ≤ (a.merge b).box := by
      intro a b p hp
      rw [Rectangle.box_merge]
      exact hp.elim (fun hp => hp.trans le_sup_left) fun hp => hp.trans le_sup_right
    rw [Contained, step, DamageTracker.addDamage]
    split
    · rename_i hfull
      exact Or.inl hfull
    · rename_i hpart
      split
      · exact Or.inl rfl
      · refine Or.inr fun r hr => consolidate_covers hmem (insertMerging_covers hmem ?_)
        obtain rfl | hr := List.mem_cons.mp hr
        · exact Or.inl le_rfl
        · exact Or.inr (h.resolve_left hpart r hr)

theorem disjoint_step_iff (h : s.Disjoint) (call : DamageCall) :
    (s.step call).Disjoint ↔ s.Settles call := by
  cases call with
  | reset => exact iff_of_true .nil trivial
  | addDamage region =>
    rw [Disjoint, step, DamageTracker.addDamage, Settles, DamageTracker.Settles]
    split
    · rename_i hfull
      exact iff_of_true h (Or.inl hfull)
    · rename_i hpart
      split
      · rename_i hlarge
        exact iff_of_true .nil (Or.inr (or_assoc.mp (Or.inl hlarge)))
      · rename_i hlarge
        rw [not_or] at hlarge
        simp only [hpart, hlarge, Bool.false_eq_true, false_or]
        exact isApart_add_iff Rectangle.intersects_comm Rectangle.intersects_merge h

end DamageWatch

/-- **What is sent.** Every rectangle added since the last reset is always within one that will be
sent, or the whole screen is; and the rectangles are always disjoint exactly if no call makes one
grow into another that it has passed. -/
theorem regions_disjoint_iff (width height : UInt16) (calls : List DamageCall) :
    damageMachine.Always (fun s => s.Disjoint ∧ s.Contained) (.start width height) calls ↔
      damageMachine.Along DamageWatch.Settles (.start width height) calls := by
  refine Machine.always_iff_along (I := fun s => s.Disjoint ∧ s.Contained) ?_ (fun _ => id) ?_ ?_
  · rintro s call ⟨hdisjoint, hcontained⟩ hsettles
    exact ⟨(DamageWatch.disjoint_step_iff hdisjoint call).mpr hsettles,
      DamageWatch.contained_step hcontained call⟩
  · rintro s call ⟨hdisjoint, -⟩ hsettles ⟨hnext, -⟩
    exact hsettles ((DamageWatch.disjoint_step_iff hdisjoint call).mp hnext)
  · exact ⟨.nil, Or.inr fun r hr => absurd hr List.not_mem_nil⟩

/-- Three rectangles apart, and one that meets the first; that then meets the third, and grows into
the second, which it has passed. -/
theorem regions_not_disjoint :
    let calls := [DamageCall.addDamage ⟨0, 0, 2, 2⟩, .addDamage ⟨4, 0, 6, 2⟩,
      .addDamage ⟨0, 8, 8, 10⟩, .addDamage ⟨0, 1, 1, 9⟩]
    (damageMachine.exec (.start 100 100) calls).tracker.regions =
        [⟨0, 0, 8, 10⟩, ⟨4, 0, 6, 2⟩] ∧
      (damageMachine.exec (.start 100 100) calls).tracker.fullUpdate = false ∧
      ¬ (damageMachine.exec (.start 100 100) calls).Disjoint := by
  intro calls
  have hregions : (damageMachine.exec (.start 100 100) calls).tracker.regions =
      [⟨0, 0, 8, 10⟩, ⟨4, 0, 6, 2⟩] := by decide +kernel
  refine ⟨hregions, by decide +kernel, fun hdisjoint => ?_⟩
  rw [DamageWatch.Disjoint, hregions] at hdisjoint
  have hmeet := List.rel_of_pairwise_cons hdisjoint List.mem_cons_self
  exact absurd hmeet (by decide)

end Bitmap

end Cheirizo
