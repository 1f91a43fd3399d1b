import Mathlib.Data.List.Basic
import Mathlib.Order.Bounds.Basic
import Mathlib.Order.Lattice
import Mathlib.Order.MinMax

/-!
# Boxes and their hulls

A box is given by its four sides. Boxes are ordered by containment, and the smallest box around two
others is their supremum, so the box around many is one in the order's own terms: a least upper
bound. A loop that widens a box step by step computes it, whatever it starts from, as long as that
is inside all of them; a box that is turned inside out is.

## Main definitions

* `Box` — a box, ordered by containment

## Main results

* `isLeast_foldl_sup` — a loop that takes suprema computes the least upper bound
* `foldl_sup_mem` — in a linear order, that is one of the values
-/

namespace Cheirizo

/-- The four sides of a box. -/
@[ext]
structure Box (α : Type*) where
  left : α
  top : α
  right : α
  bottom : α

namespace Box

variable {α : Type*} [Lattice α]

/-- A box is below those that contain it. -/
instance : PartialOrder (Box α) where
  le b c := c.left ≤ b.left ∧ c.top ≤ b.top ∧ b.right ≤ c.right ∧ b.bottom ≤ c.bottom
  le_refl _ := ⟨le_rfl, le_rfl, le_rfl, le_rfl⟩
  le_trans _ _ _ hab hbc := ⟨hbc.1.trans hab.1, hbc.2.1.trans hab.2.1, hab.2.2.1.trans hbc.2.2.1,
    hab.2.2.2.trans hbc.2.2.2⟩
  le_antisymm _ _ hab hba := Box.ext (hba.1.antisymm hab.1) (hba.2.1.antisymm hab.2.1)
    (hab.2.2.1.antisymm hba.2.2.1) (hab.2.2.2.antisymm hba.2.2.2)

theorem le_iff {b c : Box α} : b ≤ c ↔
    c.left ≤ b.left ∧ c.top ≤ b.top ∧ b.right ≤ c.right ∧ b.bottom ≤ c.bottom :=
  Iff.rfl

instance : SemilatticeSup (Box α) where
  sup b c := ⟨b.left ⊓ c.left, b.top ⊓ c.top, b.right ⊔ c.right, b.bottom ⊔ c.bottom⟩
  le_sup_left _ _ := ⟨inf_le_left, inf_le_left, le_sup_left, le_sup_left⟩
  le_sup_right _ _ := ⟨inf_le_right, inf_le_right, le_sup_right, le_sup_right⟩
  sup_le _ _ _ hac hbc := ⟨le_inf hac.1 hbc.1, le_inf hac.2.1 hbc.2.1,
    sup_le hac.2.2.1 hbc.2.2.1, sup_le hac.2.2.2 hbc.2.2.2⟩

end Box

section Hull

variable {ι β : Type*} [SemilatticeSup β] {f : ι → β}

theorem foldl_sup_le_iff {l : List ι} {b c : β} :
    l.foldl (fun a i => a ⊔ f i) b ≤ c ↔ b ≤ c ∧ ∀ i ∈ l, f i ≤ c := by
  induction l generalizing b with
  | nil => exact ⟨fun h => ⟨h, fun _ hi => absurd hi List.not_mem_nil⟩, fun h => h.1⟩
  | cons i l ih =>
    rw [List.foldl_cons, ih, sup_le_iff, List.forall_mem_cons, and_assoc]

/-- **The hull.** What the loop starts from does not matter if it is below everything. -/
theorem isLeast_foldl_sup {l : List ι} {b : β} (hne : l ≠ []) (hb : ∀ i ∈ l, b ≤ f i) :
    IsLeast {c | ∀ i ∈ l, f i ≤ c} (l.foldl (fun a i => a ⊔ f i) b) := by
  refine ⟨(foldl_sup_le_iff.mp le_rfl).2, fun c hc => foldl_sup_le_iff.mpr ⟨?_, hc⟩⟩
  obtain ⟨i, hi⟩ := List.exists_mem_of_ne_nil l hne
  exact (hb i hi).trans (hc i hi)

/-- In a linear order the loop ends with one of the values it has met. -/
theorem foldl_sup_mem {β : Type*} [LinearOrder β] {f : ι → β} (l : List ι) (b : β) :
    l.foldl (fun a i => a ⊔ f i) b = b ∨ ∃ i ∈ l, f i = l.foldl (fun a i => a ⊔ f i) b := by
  induction l generalizing b with
  | nil => exact Or.inl rfl
  | cons i l ih =>
    rw [List.foldl_cons, List.exists_mem_cons_iff]
    obtain hb | hl := ih (b ⊔ f i)
    · rw [hb]
      exact (max_choice b (f i)).imp_right fun hi => Or.inl hi.symm
    · exact Or.inr (Or.inr hl)

end Hull

end Cheirizo
