import Mathlib.Data.List.Basic

/-!
# Lists that merge what touches

A list of regions is kept small by merging those that touch. A new one is merged into the first that
it touches, and then one pass lets each region take in the later ones that touch it. The pass does
not start over when a region has grown, so regions that touch may be left; but only if a region
grows into one that it has passed.

What matters of a region is what belongs to it. If a merged region has everything that belonged to
either, nothing gets lost, whatever touching means. Where that is so only of regions that are in
some sense good, merging has to keep them good.

## Main definitions

* `insertMerging` — add a region
* `consolidate` — the pass
* `Admits` — a region is added without any growing into one that it has passed

## Main results

* `absorb_keeps` — good regions stay good
* `absorb_groups` — regions that stand for groups stand for their union when merged
* `insertMerging_covers`, `absorb_covers`, `consolidate_covers` — nothing gets lost
* `insertMerging_apart`, `consolidate_apart` — what does not touch is left as it is
* `isApart_add_iff` — exactly then nothing touches afterwards
-/

namespace Cheirizo

namespace Merge

variable {α κ : Type*}

section Definitions

variable (touches : α → α → Bool) (merge : α → α → α)

/-- Merge a region into the first that it touches, or append it. -/
def insertMerging (b : α) : List α → List α
  | [] => [b]
  | a :: l => if touches a b then merge a b :: l else a :: insertMerging b l

/-- Let a region take in the ones in a list that touch it: the region, and those left over. -/
def absorb : α → List α → α × List α
  | a, [] => (a, [])
  | a, b :: l =>
    if touches a b then absorb (merge a b) l
    else ((absorb a l).1, b :: (absorb a l).2)

/-- Let the region at `i` take in the later ones that touch it. -/
def absorbAt (l : List α) (i : ℕ) : List α :=
  match l.drop i with
  | [] => l
  | a :: rest => l.take i ++ (absorb touches merge a rest).1 :: (absorb touches merge a rest).2

/-- Each region in turn, as long as there is one. -/
def consolidate (l : List α) : List α :=
  (List.range l.length).foldl (absorbAt touches merge) l

end Definitions

section Apart

variable {touches : α → α → Bool} {merge : α → α → α}

/-- What touches nothing is appended. -/
theorem insertMerging_apart {b : α} {l : List α} (h : ∀ a ∈ l, touches a b = false) :
    insertMerging touches merge b l = l ++ [b] := by
  induction l with
  | nil => rfl
  | cons a l ih =>
    rw [List.forall_mem_cons] at h
    rw [insertMerging, h.1, ih h.2]
    rfl

theorem absorb_apart {a : α} {l : List α} (h : ∀ b ∈ l, touches a b = false) :
    absorb touches merge a l = (a, l) := by
  induction l with
  | nil => rfl
  | cons b l ih =>
    rw [List.forall_mem_cons] at h
    rw [absorb, h.1, ih h.2]
    rfl

/-- A list in which nothing touches is left as it is. -/
theorem consolidate_apart {l : List α} (h : l.Pairwise fun a b => touches a b = false) :
    consolidate touches merge l = l := by
  have hturn : ∀ i, absorbAt touches merge l i = l := by
    intro i
    rw [absorbAt]
    split
    · rfl
    · rename_i a rest hdrop
      have hrest : (a :: rest).Pairwise fun a b => touches a b = false := hdrop ▸ h.drop
      rw [absorb_apart fun b hb => List.rel_of_pairwise_cons hrest hb, ← hdrop,
        List.take_append_drop]
  rw [consolidate]
  generalize List.range l.length = is
  induction is with
  | nil => rfl
  | cons i is ih => rw [List.foldl_cons, hturn, ih]

end Apart

section Good

variable {touches : α → α → Bool} {merge : α → α → α} {Good : α → Prop}
  (hmerge : ∀ a b, Good a → Good b → Good (merge a b))

include hmerge

theorem absorb_keeps {a : α} {l : List α} (ha : Good a) (hl : ∀ b ∈ l, Good b) :
    Good (absorb touches merge a l).1 ∧ ∀ b ∈ (absorb touches merge a l).2, Good b := by
  induction l generalizing a with
  | nil => exact ⟨ha, hl⟩
  | cons b l ih =>
    rw [List.forall_mem_cons] at hl
    rw [absorb]
    split
    · exact ih (hmerge a b ha hl.1) hl.2
    · rw [List.forall_mem_cons]
      exact ⟨(ih ha hl.2).1, hl.1, (ih ha hl.2).2⟩

variable {Mem : α → κ → Prop}
  (hmem : ∀ a b p, Good a → Good b → Mem a p ∨ Mem b p → Mem (merge a b) p)

include hmem

/-- What a region takes in does not get lost. -/
theorem absorb_covers {a : α} {l : List α} {p : κ} (ha : Good a) (hl : ∀ b ∈ l, Good b)
    (h : Mem a p ∨ ∃ b ∈ l, Mem b p) :
    Mem (absorb touches merge a l).1 p ∨ ∃ b ∈ (absorb touches merge a l).2, Mem b p := by
  induction l generalizing a with
  | nil => exact h
  | cons b l ih =>
    rw [List.forall_mem_cons] at hl
    rw [List.exists_mem_cons_iff, ← or_assoc] at h
    rw [absorb]
    split
    · exact ih (hmerge a b ha hl.1) hl.2 (h.imp_left (hmem a b p ha hl.1))
    · rw [List.exists_mem_cons_iff]
      obtain (hin | hin) | hin := h
      · exact (ih ha hl.2 (Or.inl hin)).imp_right Or.inr
      · exact Or.inr (Or.inl hin)
      · exact (ih ha hl.2 (Or.inr hin)).imp_right Or.inr

end Good

section Groups

variable (touches : α → α → Bool) {merge : α → α → α} {Made : List κ → α → Prop}

/-- **Groups.** If the regions are made of groups of things, and merging makes a region of both
groups, then what a region takes in is added to its group, and nothing is added or lost. -/
theorem absorb_groups (hmerge : ∀ g g' a b, Made g a → Made g' b → Made (g ++ g') (merge a b))
    {a : α} {l : List α} {g : List κ} {gs : List (List κ)} (ha : Made g a)
    (hl : List.Forall₂ Made gs l) :
    ∃ g' gs', Made g' (absorb touches merge a l).1 ∧
      List.Forall₂ Made gs' (absorb touches merge a l).2 ∧
      (g' ++ gs'.flatten).Perm (g ++ gs.flatten) := by
  induction hl generalizing g a with
  | nil => exact ⟨g, [], ha, .nil, .refl _⟩
  | @cons h b gs l hb hl ih =>
    rw [absorb]
    split
    · obtain ⟨g', gs', ha', hl', hperm⟩ := ih (hmerge g h a b ha hb)
      refine ⟨g', gs', ha', hl', hperm.trans ?_⟩
      rw [List.flatten_cons, List.append_assoc]
    · obtain ⟨g', gs', ha', hl', hperm⟩ := ih ha
      refine ⟨g', h :: gs', ha', .cons hb hl', ?_⟩
      rw [List.flatten_cons, List.flatten_cons, ← List.append_assoc, ← List.append_assoc]
      refine (List.perm_append_comm.append_right _).trans ?_
      refine .trans ?_ (List.perm_append_comm.append_right _)
      rw [List.append_assoc, List.append_assoc]
      exact hperm.append_left h

end Groups

section Covers

variable {touches : α → α → Bool} {merge : α → α → α}

theorem insertMerging_ne_nil (b : α) (l : List α) : insertMerging touches merge b l ≠ [] := by
  cases l with
  | nil => exact List.cons_ne_nil _ _
  | cons a l =>
    rw [insertMerging]
    split
    · exact List.cons_ne_nil _ _
    · exact List.cons_ne_nil _ _

theorem absorbAt_ne_nil {l : List α} (h : l ≠ []) (i : ℕ) : absorbAt touches merge l i ≠ [] := by
  rw [absorbAt]
  split
  · exact h
  · exact List.append_ne_nil_of_right_ne_nil _ (List.cons_ne_nil _ _)

theorem consolidate_ne_nil {l : List α} (h : l ≠ []) : consolidate touches merge l ≠ [] := by
  rw [consolidate]
  generalize List.range l.length = is
  induction is generalizing l with
  | nil => exact h
  | cons i is ih => exact ih (absorbAt_ne_nil h i)

variable {Mem : α → κ → Prop} (hmem : ∀ a b p, Mem a p ∨ Mem b p → Mem (merge a b) p)

include hmem

theorem insertMerging_covers {b : α} {l : List α} {p : κ} (h : Mem b p ∨ ∃ a ∈ l, Mem a p) :
    ∃ a ∈ insertMerging touches merge b l, Mem a p := by
  induction l with
  | nil =>
    obtain hb | ⟨a, ha, -⟩ := h
    · exact ⟨b, List.mem_cons_self, hb⟩
    · cases ha
  | cons a l ih =>
    rw [List.exists_mem_cons_iff] at h
    rw [insertMerging]
    split
    · rw [List.exists_mem_cons_iff]
      obtain hb | ha | hl := h
      · exact Or.inl (hmem a b p (Or.inr hb))
      · exact Or.inl (hmem a b p (Or.inl ha))
      · exact Or.inr hl
    · rw [List.exists_mem_cons_iff]
      obtain hb | ha | hl := h
      · exact Or.inr (ih (Or.inl hb))
      · exact Or.inl ha
      · exact Or.inr (ih (Or.inr hl))

theorem absorbAt_covers {l : List α} {p : κ} (h : ∃ a ∈ l, Mem a p) (i : ℕ) :
    ∃ a ∈ absorbAt touches merge l i, Mem a p := by
  rw [absorbAt]
  split
  · exact h
  · rename_i a rest hdrop
    rw [← List.take_append_drop i l, hdrop] at h
    obtain ⟨b, hb, hp⟩ := h
    obtain hb | hb := List.mem_append.mp hb
    · exact ⟨b, List.mem_append_left _ hb, hp⟩
    · have hrest : ∃ b ∈ a :: rest, Mem b p := ⟨b, hb, hp⟩
      rw [List.exists_mem_cons_iff] at hrest
      have hgood : ∀ b ∈ rest, True := fun _ _ => trivial
      obtain ha | ⟨c, hc, hp⟩ := absorb_covers (fun _ _ _ _ => trivial)
        (fun a b p _ _ => hmem a b p) trivial hgood hrest
      · exact ⟨_, List.mem_append_right _ List.mem_cons_self, ha⟩
      · exact ⟨c, List.mem_append_right _ (List.mem_cons_of_mem _ hc), hp⟩

/-- **Nothing gets lost in a pass.** -/
theorem consolidate_covers {l : List α} {p : κ} (h : ∃ a ∈ l, Mem a p) :
    ∃ a ∈ consolidate touches merge l, Mem a p := by
  rw [consolidate]
  generalize List.range l.length = is
  induction is generalizing l with
  | nil => exact h
  | cons i is ih => exact ih (absorbAt_covers hmem h i)

end Covers

/-! ### When a pass leaves nothing touching -/

section Admits

variable (touches : α → α → Bool) (merge : α → α → α)

/-- While a region takes in what it touches ahead, it never grows into one that it has passed. -/
def Clears : List α → α → List α → Prop
  | _, _, [] => True
  | passed, a, b :: l =>
    if touches a b then
      (∀ p ∈ passed, touches (merge a b) p = false) ∧ Clears passed (merge a b) l
    else Clears (passed ++ [b]) a l

/-- Adding a region makes none grow into one that it has passed: not the first that the new one
touches, nor, if that touches one before it once it has grown, the first of these. -/
def Admits (b : α) (l : List α) : Prop :=
  ∀ before a after, l = before ++ a :: after → (∀ p ∈ before, touches p b = false) →
    touches a b = true →
    ((∀ p ∈ before, touches p (merge a b) = false) →
      Clears touches merge before (merge a b) after) ∧
    ∀ u x v, before = u ++ x :: v → (∀ p ∈ u, touches p (merge a b) = false) →
      touches x (merge a b) = true → Clears touches merge u x (v ++ merge a b :: after)

end Admits

section Touching

variable {touches : α → α → Bool} {merge : α → α → α}

/-- The regions of the list do not touch. -/
abbrev IsApart (touches : α → α → Bool) (l : List α) : Prop :=
  l.Pairwise fun a b => touches a b = false

theorem length_absorb_le (a : α) (l : List α) :
    (absorb touches merge a l).2.length ≤ l.length := by
  induction l generalizing a with
  | nil => exact Nat.le_refl _
  | cons b l ih =>
    rw [absorb]
    split
    · exact Nat.le_trans (ih _) (Nat.le_succ _)
    · exact Nat.succ_le_succ (ih a)

theorem absorbAt_zero (a : α) (l : List α) : absorbAt touches merge (a :: l) 0 =
    (absorb touches merge a l).1 :: (absorb touches merge a l).2 := rfl

theorem absorbAt_succ (a : α) (l : List α) (i : ℕ) :
    absorbAt touches merge (a :: l) (i + 1) = a :: absorbAt touches merge l i := by
  rw [absorbAt, absorbAt, List.drop_succ_cons]
  split <;> rfl

theorem absorbAt_of_length_le {l : List α} {i : ℕ} (h : l.length ≤ i) :
    absorbAt touches merge l i = l := by
  rw [absorbAt, List.drop_eq_nil_of_le h]

theorem length_absorbAt_le (l : List α) (i : ℕ) :
    (absorbAt touches merge l i).length ≤ l.length := by
  induction l generalizing i with
  | nil => exact Nat.le_of_eq (congrArg List.length (absorbAt_of_length_le (Nat.zero_le i)))
  | cons a l ih =>
    cases i with
    | zero => exact Nat.succ_le_succ (length_absorb_le a l)
    | succ i =>
      rw [absorbAt_succ]
      exact Nat.succ_le_succ (ih i)

theorem foldl_absorbAt_succ (a : α) (l : List α) (is : List ℕ) :
    (is.map Nat.succ).foldl (absorbAt touches merge) (a :: l) =
      a :: is.foldl (absorbAt touches merge) l := by
  induction is generalizing l with
  | nil => rfl
  | cons i is ih => rw [List.map_cons, List.foldl_cons, absorbAt_succ, ih, List.foldl_cons]

/-- Turns beyond the end change nothing. -/
theorem foldl_absorbAt_range {l : List α} {n : ℕ} (h : l.length ≤ n) :
    (List.range n).foldl (absorbAt touches merge) l = consolidate touches merge l := by
  induction h with
  | refl => rfl
  | @step n h ih =>
    have hlength : ∀ is : List ℕ, ∀ l : List α,
        (is.foldl (absorbAt touches merge) l).length ≤ l.length := by
      intro is
      induction is with
      | nil => exact fun l => Nat.le_refl _
      | cons i is ih => exact fun l => Nat.le_trans (ih _) (length_absorbAt_le l i)
    rw [List.range_succ, List.foldl_append, List.foldl_cons, List.foldl_nil,
      absorbAt_of_length_le (Nat.le_trans (hlength _ l) h), ih]

/-- **A pass from the front.** -/
theorem consolidate_cons (a : α) (l : List α) :
    consolidate touches merge (a :: l) =
      (absorb touches merge a l).1 :: consolidate touches merge (absorb touches merge a l).2 := by
  rw [consolidate, List.length_cons, List.range_succ_eq_map, List.foldl_cons, absorbAt_zero,
    foldl_absorbAt_succ, foldl_absorbAt_range (length_absorb_le a l)]

/-- Regions that touch nothing behind them are passed over. -/
theorem consolidate_append {u l : List α} (hu : IsApart touches u)
    (hl : ∀ p ∈ u, ∀ b ∈ l, touches p b = false) :
    consolidate touches merge (u ++ l) = u ++ consolidate touches merge l := by
  induction u with
  | nil => rfl
  | cons p u ih =>
    rw [List.forall_mem_cons] at hl
    have hpassed : ∀ b ∈ u ++ l, touches p b = false := fun b hb =>
      (List.mem_append.mp hb).elim (List.rel_of_pairwise_cons hu) (hl.1 b)
    rw [List.cons_append, consolidate_cons, absorb_apart hpassed, ih hu.tail hl.2]
    rfl

end Touching

section Apart

variable {touches : α → α → Bool} {merge : α → α → α}
  (hsymm : ∀ a b, touches a b = touches b a)
  (hleft : ∀ a b p, touches a p = true → touches (merge a b) p = true)

include hleft

/-- What has grown touches at least what it touched before. -/
theorem touches_absorb {a p : α} (h : touches a p = true) (l : List α) :
    touches (absorb touches merge a l).1 p = true := by
  induction l generalizing a with
  | nil => exact h
  | cons b l ih =>
    rw [absorb]
    split
    · exact ih (hleft a b p h)
    · exact ih h

/-- A region clears what it has passed exactly if, when it has taken in what it touches, it touches
nothing that is left. -/
theorem clears_iff {passed : List α} {a : α} {l : List α}
    (hpassed : ∀ p ∈ passed, touches a p = false) :
    Clears touches merge passed a l ↔
      ∀ p ∈ passed ++ (absorb touches merge a l).2,
        touches (absorb touches merge a l).1 p = false := by
  induction l generalizing a passed with
  | nil => exact iff_of_true trivial (by rwa [absorb, List.append_nil])
  | cons b l ih =>
    rw [Clears, absorb]
    split
    · rename_i htouches
      constructor
      · rintro ⟨hgrown, hclears⟩
        exact (ih hgrown).mp hclears
      · intro hapart
        have hgrown : ∀ p ∈ passed, touches (merge a b) p = false := by
          intro p hp
          by_contra hne
          have htrue := touches_absorb hleft ((Bool.not_eq_false _).mp hne) l
          exact Bool.false_ne_true ((hapart p (List.mem_append_left _ hp)).symm.trans htrue)
        exact ⟨hgrown, (ih hgrown).mpr hapart⟩
    · rename_i htouches
      have hpassed' : ∀ p ∈ passed ++ [b], touches a p = false := by
        intro p hp
        obtain hp | hp := List.mem_append.mp hp
        · exact hpassed p hp
        · rw [List.mem_singleton.mp hp]
          exact (Bool.not_eq_true _).mp htouches
      rw [ih hpassed', List.append_assoc]
      rfl

omit hleft in
theorem absorb_sublist (a : α) (l : List α) : (absorb touches merge a l).2.Sublist l := by
  induction l generalizing a with
  | nil => exact .refl _
  | cons b l ih =>
    rw [absorb]
    split
    · exact (ih _).cons b
    · exact (ih a).cons_cons b

omit hleft in
/-- What is not touched is passed over. -/
theorem absorb_append {a c : α} {v w : List α} (hv : ∀ b ∈ v, touches a b = false)
    (hc : touches a c = true) : absorb touches merge a (v ++ c :: w) =
      ((absorb touches merge (merge a c) w).1, v ++ (absorb touches merge (merge a c) w).2) := by
  induction v with
  | nil => rw [List.nil_append, absorb, if_pos hc, List.nil_append]
  | cons b v ih =>
    rw [List.forall_mem_cons] at hv
    rw [List.cons_append, absorb, hv.1, ih hv.2]
    rfl

omit hleft in
theorem insertMerging_append {a b : α} {before after : List α}
    (hbefore : ∀ p ∈ before, touches p b = false) (ha : touches a b = true) :
    insertMerging touches merge b (before ++ a :: after) = before ++ merge a b :: after := by
  induction before with
  | nil => rw [List.nil_append, insertMerging, if_pos ha, List.nil_append]
  | cons p before ih =>
    rw [List.forall_mem_cons] at hbefore
    rw [List.cons_append, insertMerging, hbefore.1, ih hbefore.2]
    rfl

omit hleft in
/-- The first element with a property. -/
theorem exists_first (f : α → Bool) (l : List α) : (∀ a ∈ l, f a = false) ∨
    ∃ u x v, l = u ++ x :: v ∧ (∀ a ∈ u, f a = false) ∧ f x = true := by
  induction l with
  | nil => exact Or.inl fun a ha => absurd ha List.not_mem_nil
  | cons a l ih =>
    cases ha : f a with
    | true => exact Or.inr ⟨[], a, l, rfl, fun b hb => absurd hb List.not_mem_nil, ha⟩
    | false =>
      obtain hnone | ⟨u, x, v, rfl, hu, hx⟩ := ih
      · exact Or.inl (List.forall_mem_cons.mpr ⟨ha, hnone⟩)
      · exact Or.inr ⟨a :: u, x, v, rfl, List.forall_mem_cons.mpr ⟨ha, hu⟩, hx⟩

include hsymm

/-- A pass in which only one region touches others behind it, and those that it leaves over do not
touch each other. -/
theorem isApart_consolidate_iff {u w : List α} {x : α} (hu : IsApart touches u)
    (hbehind : ∀ p ∈ u, ∀ q ∈ x :: w, touches p q = false)
    (hrest : IsApart touches (absorb touches merge x w).2) :
    IsApart touches (consolidate touches merge (u ++ x :: w)) ↔ Clears touches merge u x w := by
  have hpassed : ∀ p ∈ u, touches x p = false := fun p hp =>
    (hsymm x p).trans (hbehind p hp x List.mem_cons_self)
  rw [consolidate_append hu hbehind, consolidate_cons, consolidate_apart hrest,
    clears_iff hleft hpassed, IsApart, List.pairwise_append, List.pairwise_cons]
  constructor
  · rintro ⟨-, ⟨hahead, -⟩, hback⟩ p hp
    obtain hp | hp := List.mem_append.mp hp
    · exact (hsymm _ p).trans (hback p hp _ List.mem_cons_self)
    · exact hahead p hp
  · intro hapart
    refine ⟨hu, ⟨fun p hp => hapart p (List.mem_append_right _ hp), hrest⟩, fun p hp q hq => ?_⟩
    obtain rfl | hq := List.mem_cons.mp hq
    · exact (hsymm p _).trans (hapart p (List.mem_append_left _ hp))
    · exact hbehind p hp q (List.mem_cons_of_mem _ ((absorb_sublist x w).subset hq))

/-- The first region that the new one touches is the only one that grows, -/
theorem isApart_grown_iff {a b : α} {before after : List α}
    (hl : IsApart touches (before ++ a :: after))
    (hgrown : ∀ p ∈ before, touches p (merge a b) = false) :
    IsApart touches (consolidate touches merge (before ++ merge a b :: after)) ↔
      Clears touches merge before (merge a b) after := by
  obtain ⟨hbefore, hafter, hacross⟩ := List.pairwise_append.mp hl
  refine isApart_consolidate_iff hsymm hleft hbefore (fun p hp q hq => ?_)
    (hafter.of_cons.sublist (absorb_sublist _ _))
  obtain rfl | hq := List.mem_cons.mp hq
  · exact hgrown p hp
  · exact hacross p hp q (List.mem_cons_of_mem _ hq)

/-- or the first before it is, which the grown one touches. -/
theorem isApart_grown_iff_of_touches {a b x : α} {u v after : List α}
    (hl : IsApart touches ((u ++ x :: v) ++ a :: after))
    (hgrown : ∀ p ∈ u, touches p (merge a b) = false) (hx : touches x (merge a b) = true) :
    IsApart touches (consolidate touches merge (u ++ x :: (v ++ merge a b :: after))) ↔
      Clears touches merge u x (v ++ merge a b :: after) := by
  obtain ⟨hbefore, hafter, hacross⟩ := List.pairwise_append.mp hl
  obtain ⟨hu, hv, huv⟩ := List.pairwise_append.mp hbefore
  refine isApart_consolidate_iff hsymm hleft hu (fun p hp q hq => ?_) ?_
  · rw [← List.cons_append] at hq
    obtain hq | hq := List.mem_append.mp hq
    · exact huv p hp q hq
    obtain rfl | hq := List.mem_cons.mp hq
    · exact hgrown p hp
    · exact hacross p (List.mem_append_left _ hp) q (List.mem_cons_of_mem _ hq)
  · rw [absorb_append (fun q hq => List.rel_of_pairwise_cons hv hq) hx]
    refine List.pairwise_append.mpr ⟨hv.of_cons,
      hafter.of_cons.sublist (absorb_sublist _ _), fun p hp q hq => ?_⟩
    exact hacross p (List.mem_append_right _ (List.mem_cons_of_mem _ hp)) q
      (List.mem_cons_of_mem _ ((absorb_sublist _ _).subset hq))

/-- **Adding a region.** To a list in which nothing touches, a region is added without anything
touching afterwards exactly if no region grows into one that it has passed. -/
theorem isApart_add_iff {b : α} {l : List α} (hl : IsApart touches l) :
    IsApart touches (consolidate touches merge (insertMerging touches merge b l)) ↔
      Admits touches merge b l := by
  constructor
  · intro hapart before a after heq hbefore ha
    rw [heq, insertMerging_append hbefore ha] at hapart
    subst heq
    refine ⟨fun hgrown => (isApart_grown_iff hsymm hleft hl hgrown).mp hapart, ?_⟩
    rintro u x v rfl hgrown hx
    rw [List.append_assoc, List.cons_append] at hapart
    exact (isApart_grown_iff_of_touches hsymm hleft hl hgrown hx).mp hapart
  · intro hadmits
    obtain hnone | ⟨before, a, after, heq, hbefore, ha⟩ := exists_first (touches · b) l
    · have hadded : IsApart touches (l ++ [b]) := by
        refine List.pairwise_append.mpr ⟨hl, List.pairwise_singleton _ b, fun p hp q hq => ?_⟩
        rw [List.mem_singleton.mp hq]
        exact hnone p hp
      rw [insertMerging_apart hnone, consolidate_apart hadded]
      exact hadded
    · obtain ⟨hlast, hback⟩ := hadmits before a after heq hbefore ha
      subst heq
      rw [insertMerging_append hbefore ha]
      obtain hgrown | ⟨u, x, v, rfl, hu, hx⟩ := exists_first (touches · (merge a b)) before
      · exact (isApart_grown_iff hsymm hleft hl hgrown).mpr (hlast hgrown)
      · rw [List.append_assoc, List.cons_append]
        exact (isApart_grown_iff_of_touches hsymm hleft hl hu hx).mpr (hback u x v rfl hu hx)

end Apart

end Merge

end Cheirizo
