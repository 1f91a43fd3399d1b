import Cheirizo.Graphics.Damage
import Cheirizo.Lib.Hull
import Mathlib.Order.Interval.Set.Basic
import Mathlib.Order.Lattice.Nat

/-!
# Merged regions

A pass over the regions lets each take in the later ones that are adjacent to it. A region that has
grown may be adjacent to one that it was compared with before, so passes are made until one merges
nothing. Each pass but the last makes the list shorter.

## Main definitions

* `DamageRegion.box` — the sides of a region
* `DamageRegion.Bounded` — a region whose sides fit into 32 bits
* `Hulls` — the regions of a list are the bounding boxes of groups

## Main results

* `mergePass_of_unchanged` — a pass that merges nothing has met no adjacent regions
* `mergeRegions_fixpoint` — after no more passes than there are regions, each region is the bounding
  box of those merged into it, contains no other region of the input, and is adjacent to no other
-/

namespace Cheirizo

namespace Graphics

namespace DamageRegion

/-- The sides of a region. -/
def box (r : DamageRegion) : Box ℕ := ⟨r.x, r.y, r.right, r.bottom⟩

/-- The sides fit into 32 bits. -/
structure Bounded (r : DamageRegion) : Prop where
  right : r.x + r.width < 2 ^ 32
  bottom : r.y + r.height < 2 ^ 32

variable {r s t : DamageRegion}

theorem Bounded.right_eq (h : r.Bounded) : r.right = r.x + r.width := by
  have hlt := h.right
  rw [DamageRegion.right, saturatingAdd]
  omega

theorem Bounded.bottom_eq (h : r.Bounded) : r.bottom = r.y + r.height := by
  have hlt := h.bottom
  rw [DamageRegion.bottom, saturatingAdd]
  omega

theorem union_right_eq (hr : r.Bounded) (hs : s.Bounded) :
    (r.union s).x + (r.union s).width = max r.right s.right := by
  have hr' := hr.right_eq
  have hs' := hs.right_eq
  simp only [union]
  omega

theorem union_bottom_eq (hr : r.Bounded) (hs : s.Bounded) :
    (r.union s).y + (r.union s).height = max r.bottom s.bottom := by
  have hr' := hr.bottom_eq
  have hs' := hs.bottom_eq
  simp only [union]
  omega

theorem Bounded.union (hr : r.Bounded) (hs : s.Bounded) : (r.union s).Bounded := by
  refine ⟨?_, ?_⟩
  · rw [union_right_eq hr hs, hr.right_eq, hs.right_eq]
    exact max_lt hr.right hs.right
  · rw [union_bottom_eq hr hs, hr.bottom_eq, hs.bottom_eq]
    exact max_lt hr.bottom hs.bottom

/-- A union is the smallest box around both. -/
theorem box_union (hr : r.Bounded) (hs : s.Bounded) : (r.union s).box = r.box ⊔ s.box := by
  have hunion := hr.union hs
  refine Box.ext rfl rfl ?_ ?_
  · exact hunion.right_eq.trans (union_right_eq hr hs)
  · exact hunion.bottom_eq.trans (union_bottom_eq hr hs)

/-- Adjacency is mutual. -/
theorem isAdjacent_comm (hr : r.Bounded) (hs : s.Bounded) (mergeDistance : ℕ) :
    r.isAdjacent s mergeDistance = s.isAdjacent r mergeDistance := by
  have hrr := hr.right_eq
  have hrb := hr.bottom_eq
  have hsr := hs.right_eq
  have hsb := hs.bottom_eq
  have hx : (if r.right ≤ s.x then s.x - r.right else r.x - s.right) =
      if s.right ≤ r.x then r.x - s.right else s.x - r.right := by
    split_ifs <;> omega
  have hy : (if r.bottom ≤ s.y then s.y - r.bottom else r.y - s.bottom) =
      if s.bottom ≤ r.y then r.y - s.bottom else s.y - r.bottom := by
    split_ifs <;> omega
  simp only [isAdjacent, hx, hy]

/-- Regions around the same region are adjacent. -/
theorem isAdjacent_of_le (ht : t.Bounded) (hr : t.box ≤ r.box) (hs : t.box ≤ s.box)
    (mergeDistance : ℕ) : r.isAdjacent s mergeDistance = true := by
  have htr := ht.right_eq
  have htb := ht.bottom_eq
  obtain ⟨hr1, hr2, hr3, hr4⟩ := Box.le_iff.mp hr
  obtain ⟨hs1, hs2, hs3, hs4⟩ := Box.le_iff.mp hs
  simp only [box] at hr1 hr2 hr3 hr4 hs1 hs2 hs3 hs4
  have hx : (if r.right ≤ s.x then s.x - r.right else r.x - s.right) = 0 := by
    split_ifs <;> omega
  have hy : (if r.bottom ≤ s.y then s.y - r.bottom else r.y - s.bottom) = 0 := by
    split_ifs <;> omega
  simp only [isAdjacent, hx, hy, Nat.zero_le, decide_true, Bool.and_self]

end DamageRegion

/-! ### Passes -/

variable {mergeDistance : ℕ}

/-- A region that took in nothing is adjacent to nothing. -/
theorem absorb_of_unchanged {current : DamageRegion} {regions : List DamageRegion}
    (h : (absorb mergeDistance current regions).2.2 = false) :
    absorb mergeDistance current regions = (current, regions, false) ∧
      ∀ r ∈ regions, current.isAdjacent r mergeDistance = false := by
  induction regions with
  | nil => exact ⟨rfl, fun r hr => absurd hr List.not_mem_nil⟩
  | cons r regions ih =>
    rw [absorb] at h ⊢
    split at h
    · cases h
    · rename_i hadjacent
      obtain ⟨hsame, hapart⟩ := ih h
      rw [if_neg hadjacent, hsame]
      exact ⟨rfl, List.forall_mem_cons.mpr ⟨Bool.eq_false_of_not_eq_true hadjacent, hapart⟩⟩

/-- **The last pass.** A pass that merges nothing leaves the regions as they are, and no two of them
are adjacent. -/
theorem mergePass_of_unchanged {regions : List DamageRegion}
    (h : (mergePass mergeDistance regions).2 = false) :
    (mergePass mergeDistance regions).1 = regions ∧
      regions.Pairwise fun r s => r.isAdjacent s mergeDistance = false := by
  induction regions with
  | nil =>
    rw [mergePass]
    exact ⟨rfl, .nil⟩
  | cons r regions ih =>
    rw [mergePass_cons] at h ⊢
    obtain ⟨habsorb, hrest⟩ := Bool.or_eq_false_iff.mp h
    obtain ⟨hsame, hapart⟩ := absorb_of_unchanged habsorb
    rw [hsame] at hrest ⊢
    obtain ⟨hregions, hpairwise⟩ := ih hrest
    exact ⟨congrArg (List.cons r) hregions, .cons hapart hpairwise⟩

/-- The region is the bounding box of a group of regions. -/
structure Hull (group : List DamageRegion) (r : DamageRegion) : Prop where
  bounded : r.Bounded
  nonempty : group ≠ []
  members : ∀ s ∈ group, s.Bounded
  isLUB : IsLUB {b | ∃ s ∈ group, s.box = b} r.box

theorem Hull.singleton {r : DamageRegion} (h : r.Bounded) : Hull [r] r := by
  refine ⟨h, List.cons_ne_nil _ _, fun s hs => List.mem_singleton.mp hs ▸ h, ?_, ?_⟩
  · rintro b ⟨s, hs, rfl⟩
    rw [List.mem_singleton.mp hs]
  · exact fun b hb => hb ⟨r, List.mem_singleton_self r, rfl⟩

/-- Merging merges the groups. -/
theorem Hull.union {g g' : List DamageRegion} {r s : DamageRegion} (hr : Hull g r)
    (hs : Hull g' s) : Hull (g ++ g') (r.union s) := by
  refine ⟨hr.bounded.union hs.bounded, List.append_ne_nil_of_left_ne_nil hr.nonempty _, ?_, ?_⟩
  · intro t ht
    exact (List.mem_append.mp ht).elim (hr.members t) (hs.members t)
  · have hset : {b | ∃ t ∈ g ++ g', t.box = b} =
        {b | ∃ t ∈ g, t.box = b} ∪ {b | ∃ t ∈ g', t.box = b} := by
      ext b
      simp only [List.mem_append, Set.mem_ofPred_eq, Set.mem_union, or_and_right, exists_or]
    rw [hset, DamageRegion.box_union hr.bounded hs.bounded]
    exact hr.isLUB.union hs.isLUB

/-- The regions are the bounding boxes of groups of the regions there were. -/
def Hulls (regions : List DamageRegion) (groups : List (List DamageRegion))
    (merged : List DamageRegion) : Prop :=
  groups.flatten.Perm regions ∧ List.Forall₂ Hull groups merged

/-- **One pass** puts groups together, and neither adds nor loses a region. -/
theorem mergePass_hulls (mergeDistance : ℕ) {groups : List (List DamageRegion)}
    {regions : List DamageRegion} (h : List.Forall₂ Hull groups regions) :
    ∃ groups', groups'.flatten.Perm groups.flatten ∧
      List.Forall₂ Hull groups' (mergePass mergeDistance regions).1 := by
  induction hn : regions.length using Nat.strong_induction_on generalizing regions groups with
  | _ n ih =>
    cases h with
    | nil =>
      rw [mergePass]
      exact ⟨[], .refl _, .nil⟩
    | @cons g r groups regions hr hrest =>
      obtain ⟨g', groups', hmerged, hunused, hperm⟩ := Merge.absorb_groups
        (fun r s => DamageRegion.isAdjacent r s mergeDistance) (fun _ _ _ _ => Hull.union) hr hrest
      obtain ⟨hfirst, hsecond⟩ := absorb_eq mergeDistance r regions
      rw [← hfirst] at hmerged
      rw [← hsecond] at hunused
      have hlength := absorb_length mergeDistance r regions
      rw [List.length_cons] at hn
      obtain ⟨groups'', hperm', hhulls⟩ := ih _ (by omega) hunused rfl
      refine ⟨g' :: groups'', ?_, ?_⟩
      · rw [List.flatten_cons, List.flatten_cons]
        exact (hperm'.append_left g').trans hperm
      · rw [mergePass_cons]
        exact .cons hmerged hhulls

/-! ### All passes -/

/-- The regions after a pass. -/
def afterPass (mergeDistance : ℕ) (regions : List DamageRegion) : List DamageRegion :=
  (mergePass mergeDistance regions).1

/-- **Termination.** After no more passes than there are regions, the next one merges nothing. -/
theorem mergeLoop_passes (mergeDistance : ℕ) (regions : List DamageRegion) :
    ∃ passes ≤ regions.length,
      mergeLoop mergeDistance regions = (afterPass mergeDistance)^[passes] regions ∧
        (mergePass mergeDistance (mergeLoop mergeDistance regions)).2 = false := by
  fun_induction mergeLoop mergeDistance regions with
  | case1 regions hchanged ih =>
    obtain ⟨passes, hpasses, hloop, hlast⟩ := ih
    have hlength := mergePass_length mergeDistance regions
    rw [hchanged, Bool.toNat_true] at hlength
    exact ⟨passes + 1, by omega, hloop, hlast⟩
  | case2 regions hchanged =>
    have hunchanged := Bool.eq_false_of_not_eq_true hchanged
    rw [(mergePass_of_unchanged hunchanged).1]
    exact ⟨0, Nat.zero_le _, rfl, hunchanged⟩

theorem mergeRegions_passes (regions : List DamageRegion) (mergeDistance : ℕ) :
    ∃ passes ≤ regions.length,
      mergeRegions regions mergeDistance = (afterPass mergeDistance)^[passes] regions ∧
        (mergePass mergeDistance (mergeRegions regions mergeDistance)).2 = false := by
  rw [mergeRegions]
  split
  · rename_i hfew
    refine ⟨0, Nat.zero_le _, rfl, ?_⟩
    obtain _ | ⟨r, _ | ⟨s, rest⟩⟩ := regions
    · rw [mergePass]
    · rw [mergePass_cons, absorb, mergePass]
      rfl
    · exact absurd hfew (by simp)
  · exact mergeLoop_passes mergeDistance regions

theorem hulls_iterate (mergeDistance : ℕ) {regions : List DamageRegion}
    (h : ∀ r ∈ regions, r.Bounded) (passes : ℕ) :
    ∃ groups, Hulls regions groups ((afterPass mergeDistance)^[passes] regions) := by
  induction passes with
  | zero =>
    refine ⟨regions.map fun r => [r], ?_, ?_⟩
    · rw [← List.flatMap_def, List.flatMap_singleton']
    · rw [List.forall₂_map_left_iff, Function.iterate_zero_apply, List.forall₂_same]
      exact fun r hr => Hull.singleton (h r hr)
  | succ passes ih =>
    obtain ⟨groups, hperm, hhulls⟩ := ih
    obtain ⟨groups', hperm', hhulls'⟩ := mergePass_hulls mergeDistance hhulls
    rw [Function.iterate_succ_apply']
    exact ⟨groups', hperm'.trans hperm, hhulls'⟩

/-- **The fixpoint.** After no more passes than there are regions, nothing is left to merge: no two
regions are adjacent. Each is the bounding box of the regions merged into it, and these are
contained in no other. -/
theorem mergeRegions_fixpoint (regions : List DamageRegion) (mergeDistance : ℕ)
    (hbounded : ∀ r ∈ regions, r.Bounded) :
    let merged := mergeRegions regions mergeDistance
    (∃ passes ≤ regions.length, merged = (afterPass mergeDistance)^[passes] regions ∧
      mergePass mergeDistance merged = (merged, false)) ∧
    (merged.Pairwise fun r s =>
      r.isAdjacent s mergeDistance = false ∧ s.isAdjacent r mergeDistance = false) ∧
    ∃ groups, Hulls regions groups merged ∧
      ∀ i j (hi : i < groups.length) (hj : j < merged.length), ∀ r ∈ groups[i],
        (r.box ≤ merged[j].box ↔ i = j) := by
  intro merged
  obtain ⟨passes, hpasses, hmerged, hlast⟩ := mergeRegions_passes regions mergeDistance
  obtain ⟨hsame, hapart⟩ := mergePass_of_unchanged hlast
  obtain ⟨groups, hperm, hhulls⟩ := hulls_iterate mergeDistance hbounded passes
  rw [← hmerged] at hhulls
  have hmutual : merged.Pairwise fun r s =>
      r.isAdjacent s mergeDistance = false ∧ s.isAdjacent r mergeDistance = false := by
    have hall : ∀ r ∈ merged, r.Bounded := by
      intro r hr
      obtain ⟨i, hi, rfl⟩ := List.getElem_of_mem hr
      exact (hhulls.get (hhulls.length_eq ▸ hi) hi).bounded
    refine hapart.imp_of_mem fun hr hs hadjacent => ⟨hadjacent, ?_⟩
    rw [DamageRegion.isAdjacent_comm (hall _ hs) (hall _ hr)]
    exact hadjacent
  refine ⟨⟨passes, hpasses, hmerged, Prod.ext hsame hlast⟩, hmutual, groups, ⟨hperm, hhulls⟩, ?_⟩
  intro i j hi hj r hr
  have hi' : i < merged.length := hhulls.length_eq ▸ hi
  have hull : Hull groups[i] merged[i] := hhulls.get hi hi'
  have hin : r.box ≤ merged[i].box := hull.isLUB.1 ⟨r, hr, rfl⟩
  refine ⟨fun hle => ?_, fun hij => ?_⟩
  · have hadjacent := DamageRegion.isAdjacent_of_le (hull.members r hr) hin hle mergeDistance
    rw [List.pairwise_iff_getElem] at hmutual
    by_contra hne
    obtain hlt | hgt := lt_or_gt_of_ne hne
    · exact Bool.false_ne_true ((hmutual i j hi' hj hlt).1.symm.trans hadjacent)
    · exact Bool.false_ne_true ((hmutual j i hj hi' hgt).2.symm.trans hadjacent)
  · subst hij
    exact hin

/-- A region that grows until it is adjacent to one that it was compared with before. -/
theorem mergeRegions_fixpoint_second_pass :
    afterPass 2 [⟨0, 0, 2, 2⟩, ⟨10, 0, 2, 2⟩, ⟨3, 0, 6, 2⟩] = [⟨0, 0, 9, 2⟩, ⟨10, 0, 2, 2⟩] ∧
      mergeRegions [⟨0, 0, 2, 2⟩, ⟨10, 0, 2, 2⟩, ⟨3, 0, 6, 2⟩] 2 = [⟨0, 0, 12, 2⟩] ∧
      mergePass 2 [⟨0, 0, 12, 2⟩] = ([⟨0, 0, 12, 2⟩], false) := by
  have hresult : mergeRegions [⟨0, 0, 2, 2⟩, ⟨10, 0, 2, 2⟩, ⟨3, 0, 6, 2⟩] 2 = [⟨0, 0, 12, 2⟩] := by
    simp [mergeRegions, mergeLoop, mergePass, absorb, DamageRegion.isAdjacent, DamageRegion.right,
      DamageRegion.bottom, saturatingAdd, DamageRegion.union]
  obtain ⟨⟨_, -, -, hlast⟩, -⟩ := mergeRegions_fixpoint
    [⟨0, 0, 2, 2⟩, ⟨10, 0, 2, 2⟩, ⟨3, 0, 6, 2⟩] 2 (by
      simp only [List.forall_mem_cons]
      exact ⟨⟨by decide, by decide⟩, ⟨by decide, by decide⟩, ⟨by decide, by decide⟩,
        fun r hr => absurd hr List.not_mem_nil⟩)
  rw [hresult] at hlast
  refine ⟨?_, hresult, hlast⟩
  simp [afterPass, mergePass, absorb, DamageRegion.isAdjacent, DamageRegion.right,
    DamageRegion.bottom, saturatingAdd, DamageRegion.union]

end Graphics

end Cheirizo
