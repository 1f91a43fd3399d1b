import Mathlib.Data.List.Basic
import Mathlib.Tactic.Common

/-!
# Maps in the order of their keys

A map that is written out in the order of its keys and put together again is the same map, also on
top of one with no other keys; and a list in the order of its keys is what its map is written out
as.
-/

namespace Cheirizo

namespace OrderedMap

variable {K V : Type*} [Ord K] [Std.TransOrd K] [Std.LawfulEqOrd K]

/-- Put the entries of a list into a map. -/
def insertAll (m : Std.ExtTreeMap K V) (entries : List (K × V)) : Std.ExtTreeMap K V :=
  entries.foldl (fun m entry => m.insert entry.1 entry.2) m

theorem getElem?_insertAll {full : Std.ExtTreeMap K V} {entries : List (K × V)}
    (h : ∀ entry ∈ entries, full[entry.1]? = some entry.2) (m : Std.ExtTreeMap K V) (k : K) :
    (k ∈ entries.map Prod.fst → (insertAll m entries)[k]? = full[k]?) ∧
      (k ∉ entries.map Prod.fst → (insertAll m entries)[k]? = m[k]?) := by
  induction entries generalizing m with
  | nil => exact ⟨fun hk => absurd hk List.not_mem_nil, fun _ => rfl⟩
  | cons entry entries ih =>
    have hrest := ih (fun e he => h e (List.mem_cons_of_mem _ he)) (m.insert entry.1 entry.2)
    rw [List.map_cons, List.mem_cons]
    constructor
    · intro hk
      by_cases hmem : k ∈ entries.map Prod.fst
      · exact hrest.1 hmem
      · obtain rfl := hk.resolve_right hmem
        rw [h entry List.mem_cons_self]
        exact (hrest.2 hmem).trans Std.ExtTreeMap.getElem?_insert_self
    · intro hk
      rw [not_or] at hk
      have hne : compare entry.1 k ≠ .eq := fun heq =>
        hk.1 (Std.LawfulEqOrd.eq_of_compare heq).symm
      refine (hrest.2 hk.2).trans ?_
      rw [Std.ExtTreeMap.getElem?_insert, if_neg hne]

/-- A map comes back from its entries, if it has every key that was there before. -/
theorem insertAll_toList {m full : Std.ExtTreeMap K V} (h : ∀ k ∈ m, k ∈ full) :
    insertAll m full.toList = full := by
  refine Std.ExtTreeMap.ext_getElem? fun k => ?_
  have hfull : ∀ entry ∈ full.toList, full[entry.1]? = some entry.2 := fun entry hentry =>
    Std.ExtTreeMap.mem_toList_iff_getElem?_eq_some.mp hentry
  have hentries := getElem?_insertAll hfull m k
  by_cases hk : k ∈ full.toList.map Prod.fst
  · exact hentries.1 hk
  · have hnot : k ∉ full := by
      rwa [Std.ExtTreeMap.map_fst_toList_eq_keys, Std.ExtTreeMap.mem_keys] at hk
    rw [hentries.2 hk, Std.ExtTreeMap.getElem?_eq_none (fun hm => hnot (h k hm)),
      Std.ExtTreeMap.getElem?_eq_none hnot]

/-- The map of a list without repeated keys has its entries. -/
theorem mem_toList_insertAll {entries : List (K × V)}
    (h : entries.Pairwise fun a b => ¬ compare a.1 b.1 = .eq) (entry : K × V) :
    entry ∈ (insertAll ∅ entries).toList ↔ entry ∈ entries := by
  have hlist : insertAll ∅ entries = Std.ExtTreeMap.ofList entries :=
    Std.ExtTreeMap.ofList_eq_foldl.symm
  have hget : ∀ {k : K} {v : V}, (k, v) ∈ entries → (insertAll ∅ entries)[k]? = some v := by
    intro k v hmem
    rw [hlist]
    exact Std.ExtTreeMap.getElem?_ofList_of_mem Std.ReflOrd.compare_self h hmem
  obtain ⟨k, v⟩ := entry
  rw [Std.ExtTreeMap.mem_toList_iff_getElem?_eq_some]
  refine ⟨fun hv => ?_, hget⟩
  have hkey : k ∈ entries.map Prod.fst := by
    by_contra hkey
    have hnone := (getElem?_insertAll (fun e (he : (e.1, e.2) ∈ entries) => hget he) ∅ k).2 hkey
    rw [hv, Std.ExtTreeMap.getElem?_empty] at hnone
    cases hnone
  obtain ⟨⟨k', v'⟩, hmem, rfl⟩ := List.mem_map.mp hkey
  rw [hget hmem] at hv
  cases hv
  exact hmem

/-- A map has only entries that were put into it. -/
theorem mem_of_mem_insertAll {entries : List (K × V)} {entry : K × V}
    (h : entry ∈ (insertAll ∅ entries).toList) : entry ∈ entries := by
  have hget : ∀ (m : Std.ExtTreeMap K V) (es : List (K × V)) {k : K} {v : V},
      (insertAll m es)[k]? = some v → (k, v) ∈ es ∨ m[k]? = some v := by
    intro m es
    induction es generalizing m with
    | nil => exact fun hv => Or.inr hv
    | cons e es ih =>
      intro k v hv
      obtain hmem | hv := ih (m.insert e.1 e.2) hv
      · exact Or.inl (List.mem_cons_of_mem _ hmem)
      · rw [Std.ExtTreeMap.getElem?_insert] at hv
        split_ifs at hv with heq
        · cases hv
          rw [← Std.LawfulEqOrd.eq_of_compare heq]
          exact Or.inl List.mem_cons_self
        · exact Or.inr hv
  obtain hmem | hempty := hget ∅ entries (Std.ExtTreeMap.mem_toList_iff_getElem?_eq_some.mp h)
  · exact hmem
  · rw [Std.ExtTreeMap.getElem?_empty] at hempty
    cases hempty

/-- A list comes back from its map, if it is in the order of its keys. -/
theorem toList_insertAll {entries : List (K × V)}
    (h : entries.Pairwise fun a b => compare a.1 b.1 = .lt) :
    (insertAll ∅ entries).toList = entries := by
  have hne : ∀ {a b : K × V}, compare a.1 b.1 = .lt → ¬ compare a.1 b.1 = .eq := by
    intro a b hlt heq
    rw [hlt] at heq
    cases heq
  have hnodup : ∀ {l : List (K × V)}, l.Pairwise (fun a b => compare a.1 b.1 = .lt) → l.Nodup := by
    intro l hl
    refine hl.imp fun {a b} hlt heq => ?_
    subst heq
    exact hne hlt Std.ReflOrd.compare_self
  have hordered := Std.ExtTreeMap.ordered_keys_toList (t := insertAll ∅ entries)
  have hperm := (List.perm_ext_iff_of_nodup (hnodup hordered) (hnodup h)).mpr
    (mem_toList_insertAll (h.imp hne))
  refine hperm.eq_of_pairwise (fun a b _ _ hab hba => ?_) hordered h
  exact (Std.OrientedCmp.not_lt_of_lt hab hba).elim

end OrderedMap

end Cheirizo
