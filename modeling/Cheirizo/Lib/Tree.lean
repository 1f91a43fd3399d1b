import Mathlib.Data.List.Perm.Basic
import Mathlib.Logic.Function.Basic

/-!
# Nested maps and edits to them

A map whose entries are leaves or maps again. An edit goes down a path, making the maps on it as it
goes, and puts leaves where the path ends. It cannot go through a leaf, but it may put a leaf where
a map was. So two edits can be in each other's way in three ways: one puts a leaf on the path of the
other, the other on the path of the first, or both put different leaves in the same place. If they
do not, they commute, and so do any number of edits that pairwise do not.

## Main definitions

* `Tree`, `Tree.Branch` — nested maps
* `Tree.modifyAt`, `Tree.assign` — going down a path, and putting leaves
* `Tree.Edit` — both, with `Spares` and `Agrees` for edits that are not in each other's way

## Main results

* `Edit.apply_comm` — two edits
* `applyAll_perm` — edits in any order
* `applyAll_isSome` — edits none of which puts a leaf on the path of a later one succeed
-/

namespace Cheirizo

/-- A leaf, or a map to trees. -/
inductive Tree (κ α : Type*) where
  | leaf (value : α)
  | node (children : κ → Option (Tree κ α))

namespace Tree

/-- A map to trees. -/
abbrev Branch (κ α : Type*) := κ → Option (Tree κ α)

variable {κ α : Type*} [DecidableEq κ]

/-- A branch without anything below it. -/
def empty : Branch κ α := fun _ => none

/-- The map under a key; a missing one is empty. -/
def child (t : Branch κ α) (k : κ) : Option (Branch κ α) :=
  match t k with
  | none => some empty
  | some (.node c) => some c
  | some (.leaf _) => none

/-- Change the map at the end of the path. -/
def modifyAt (f : Branch κ α → Branch κ α) : List κ → Branch κ α → Option (Branch κ α)
  | [], t => some (f t)
  | k :: path, t =>
    (child t k).bind fun c =>
      (modifyAt f path c).map fun c' => Function.update t k (some (.node c'))

/-- Put leaves, one after the other. -/
def assign (leaves : List (κ × α)) (t : Branch κ α) : Branch κ α :=
  leaves.foldl (fun t l => Function.update t l.1 (some (.leaf l.2))) t

/-- The entry at the end of the path. -/
def entryAt : Branch κ α → List κ → κ → Option (Tree κ α)
  | t, [], k => t k
  | t, x :: path, k =>
    match t x with
    | some (.node c) => entryAt c path k
    | _ => none

/-- There is no leaf on the path. -/
def Open : Branch κ α → List κ → Prop
  | _, [] => True
  | t, k :: path => ∃ c, child t k = some c ∧ Open c path

/-! ### Leaves -/

@[simp] theorem assign_nil (t : Branch κ α) : assign [] t = t := rfl

@[simp] theorem assign_cons (l : κ × α) (leaves : List (κ × α)) (t : Branch κ α) :
    assign (l :: leaves) t = assign leaves (Function.update t l.1 (some (.leaf l.2))) := rfl

theorem assign_append (leaves leaves' : List (κ × α)) (t : Branch κ α) :
    assign (leaves ++ leaves') t = assign leaves' (assign leaves t) := List.foldl_append ..

/-- An entry that the leaves do not replace by another can be put before or after them. -/
theorem assign_update {leaves : List (κ × α)} {k : κ} {x : Option (Tree κ α)}
    (h : ∀ l ∈ leaves, l.1 = k → some (.leaf l.2) = x) (t : Branch κ α) :
    assign leaves (Function.update t k x) = Function.update (assign leaves t) k x := by
  induction leaves generalizing t with
  | nil => rfl
  | cons l leaves ih =>
    have hrest := fun m hm => h m (List.mem_cons_of_mem l hm)
    rw [assign_cons, assign_cons]
    by_cases hk : l.1 = k
    · rw [h l (List.mem_cons_self ..) hk, hk, Function.update_idem, ih hrest, Function.update_idem]
    · rw [← Function.update_comm hk, ih hrest]

theorem assign_of_ne {leaves : List (κ × α)} {k : κ} (h : ∀ l ∈ leaves, l.1 ≠ k)
    (t : Branch κ α) : assign leaves t k = t k := by
  induction leaves generalizing t with
  | nil => rfl
  | cons l leaves ih =>
    rw [assign_cons, ih fun m hm => h m (List.mem_cons_of_mem l hm),
      Function.update_of_ne (h l (List.mem_cons_self ..)).symm]

/-- Leaves that agree can be put in either order. -/
theorem assign_comm {leaves leaves' : List (κ × α)}
    (h : ∀ l ∈ leaves, ∀ l' ∈ leaves', l.1 = l'.1 → l.2 = l'.2) (t : Branch κ α) :
    assign leaves' (assign leaves t) = assign leaves (assign leaves' t) := by
  induction leaves' generalizing t with
  | nil => rfl
  | cons l' leaves' ih =>
    have hrest := fun l hl m hm => h l hl m (List.mem_cons_of_mem l' hm)
    rw [assign_cons, assign_cons, ← assign_update, ih hrest]
    intro l hl hkey
    rw [h l hl l' (List.mem_cons_self ..) hkey]

/-- The leaves of a permutation, if those with the same key agree. -/
theorem assign_perm {leaves leaves' : List (κ × α)} (hperm : leaves.Perm leaves')
    (h : ∀ l ∈ leaves, ∀ l' ∈ leaves, l.1 = l'.1 → l.2 = l'.2) (t : Branch κ α) :
    assign leaves t = assign leaves' t := by
  refine hperm.foldl_eq' ?_ t
  intro l hl l' hl' t
  by_cases hkey : l.1 = l'.1
  · rw [hkey, h l hl l' hl' hkey]
  · exact Function.update_comm hkey ..

/-- Where a leaf was, or was put, there is a leaf. -/
theorem exists_leaf {leaves : List (κ × α)} {t : Branch κ α} {k : κ}
    (h : (∃ v, t k = some (.leaf v)) ∨ ∃ l ∈ leaves, l.1 = k) :
    ∃ v, assign leaves t k = some (.leaf v) := by
  induction leaves generalizing t with
  | nil =>
    obtain hleaf | ⟨l, hl, -⟩ := h
    · exact hleaf
    · cases hl
  | cons m leaves ih =>
    rw [assign_cons]
    apply ih
    by_cases hkey : m.1 = k
    · left
      rw [← hkey, Function.update_self]
      exact ⟨m.2, rfl⟩
    · rw [Function.update_of_ne (Ne.symm hkey)]
      obtain hleaf | ⟨l, hl, hlkey⟩ := h
      · exact .inl hleaf
      · rcases List.mem_cons.mp hl with rfl | hl
        · exact absurd hlkey hkey
        · exact .inr ⟨l, hl, hlkey⟩

/-! ### Paths -/

@[simp] theorem child_update_self (t : Branch κ α) (k : κ) (c : Branch κ α) :
    child (Function.update t k (some (.node c))) k = some c := by
  rw [child, Function.update_self]

theorem child_update_of_ne {t : Branch κ α} {k k' : κ} {x : Option (Tree κ α)} (h : k ≠ k') :
    child (Function.update t k x) k' = child t k' := by
  rw [child, child, Function.update_of_ne h.symm]

theorem child_assign {leaves : List (κ × α)} {k : κ} (h : ∀ l ∈ leaves, l.1 ≠ k)
    (t : Branch κ α) : child (assign leaves t) k = child t k := by
  rw [child, child, assign_of_ne h]

/-- What is behind the first key of a path. -/
theorem modifyAt_cons {f : Branch κ α → Branch κ α} {k : κ} {path : List κ}
    {t t' : Branch κ α} :
    modifyAt f (k :: path) t = some t' ↔
      ∃ c, child t k = some c ∧ ∃ c', modifyAt f path c = some c' ∧
        t' = Function.update t k (some (.node c')) := by
  simp only [modifyAt, Option.bind_eq_some_iff, Option.map_eq_some_iff]
  refine exists_congr fun c => and_congr_right fun _ => exists_congr fun c' => ?_
  rw [eq_comm (a := t')]

theorem modifyAt_isSome {f : Branch κ α → Branch κ α} {path : List κ} {t : Branch κ α} :
    (modifyAt f path t).isSome ↔ Open t path := by
  induction path generalizing t with
  | nil => exact iff_of_true rfl trivial
  | cons k path ih =>
    rw [Option.isSome_iff_exists, Open]
    constructor
    · rintro ⟨t', h⟩
      obtain ⟨c, hc, c', hc', -⟩ := modifyAt_cons.mp h
      exact ⟨c, hc, ih.mp (Option.isSome_iff_exists.mpr ⟨c', hc'⟩)⟩
    · rintro ⟨c, hc, hopen⟩
      obtain ⟨c', hc'⟩ := Option.isSome_iff_exists.mp (ih.mpr hopen)
      exact ⟨_, modifyAt_cons.mpr ⟨c, hc, c', hc', rfl⟩⟩

omit [DecidableEq κ] in
theorem open_empty (path : List κ) : Open (empty : Branch κ α) path := by
  induction path with
  | nil => trivial
  | cons k path ih => exact ⟨empty, rfl, ih⟩

/-- What was put last is at the end of the path. -/
theorem entryAt_modifyAt {f : Branch κ α → Branch κ α} {path : List κ} {t t' : Branch κ α} {k : κ}
    {x : Option (Tree κ α)} (h : modifyAt f path t = some t') (hf : ∀ t, f t k = x) :
    entryAt t' path k = x := by
  induction path generalizing t t' with
  | nil =>
    cases h
    exact hf t
  | cons y path ih =>
    obtain ⟨c, -, c', hc', rfl⟩ := modifyAt_cons.mp h
    rw [entryAt, Function.update_self]
    exact ih hc'

/-! ### Edits -/

/-- Leaves to be put at the end of a path. -/
structure Edit (κ α : Type*) where
  path : List κ
  leaves : List (κ × α)

namespace Edit

/-- The edit fails where its path runs into a leaf. -/
def apply (e : Edit κ α) (t : Branch κ α) : Option (Branch κ α) :=
  modifyAt (assign e.leaves) e.path t

/-- The first puts no leaf on the path of the second. -/
def Spares (e e' : Edit κ α) : Prop := ∀ l ∈ e.leaves, ¬ e.path ++ [l.1] <+: e'.path

/-- What they put in the same place is the same. -/
def Agrees (e e' : Edit κ α) : Prop :=
  e.path = e'.path → ∀ l ∈ e.leaves, ∀ l' ∈ e'.leaves, l.1 = l'.1 → l.2 = l'.2

/-- An edit succeeds if its path is open. -/
theorem apply_isSome {e : Edit κ α} {t : Branch κ α} : (e.apply t).isSome ↔ Open t e.path :=
  modifyAt_isSome

/-- An edit that puts no leaf on a path leaves it open. -/
theorem open_apply {e : Edit κ α} {t t' : Branch κ α} {path : List κ} (h : e.apply t = some t')
    (hspares : ∀ l ∈ e.leaves, ¬ e.path ++ [l.1] <+: path) (hopen : Open t path) :
    Open t' path := by
  obtain ⟨p, leaves⟩ := e
  change modifyAt (assign leaves) p t = some t' at h
  dsimp only at hspares
  induction p generalizing t t' path with
  | nil =>
    cases h
    cases path with
    | nil => trivial
    | cons k path =>
      obtain ⟨c, hc, hopen⟩ := hopen
      refine ⟨c, ?_, hopen⟩
      rw [child_assign, hc]
      rintro l hl rfl
      exact hspares l hl (List.prefix_append [l.1] path)
  | cons x p ih =>
    obtain ⟨c, hc, c', hc', rfl⟩ := modifyAt_cons.mp h
    cases path with
    | nil => trivial
    | cons k path =>
      obtain ⟨d, hd, hopen⟩ := hopen
      by_cases hk : x = k
      · subst hk
        obtain rfl := Option.some_inj.mp (hc.symm.trans hd)
        refine ⟨c', child_update_self .., ih hopen ?_ hc'⟩
        intro l hl hunder
        exact hspares l hl ((List.prefix_cons_inj x).mpr hunder)
      · exact ⟨d, (child_update_of_ne hk).trans hd, hopen⟩

/-- An edit that puts a leaf on a path closes it. -/
theorem not_open_apply {e : Edit κ α} {t t' : Branch κ α} {path : List κ} {l : κ × α}
    (h : e.apply t = some t') (hl : l ∈ e.leaves) (hunder : e.path ++ [l.1] <+: path) :
    ¬ Open t' path := by
  obtain ⟨p, leaves⟩ := e
  change modifyAt (assign leaves) p t = some t' at h
  dsimp only at hl hunder
  obtain ⟨rest, rfl⟩ := hunder
  induction p generalizing t t' with
  | nil =>
    cases h
    rintro ⟨c, hc, -⟩
    obtain ⟨v, hv⟩ := exists_leaf (t := t) (.inr ⟨l, hl, rfl⟩)
    rw [child, hv] at hc
    cases hc
  | cons x p ih =>
    obtain ⟨c, -, c', hc', rfl⟩ := modifyAt_cons.mp h
    rintro ⟨d, hd, hopen⟩
    rw [child_update_self] at hd
    cases hd
    exact ih hc' hopen

/-- A leaf on the top level goes before or after an edit below it. -/
theorem assign_modifyAt {f : Branch κ α → Branch κ α} {leaves : List (κ × α)} {k : κ}
    {path : List κ} (h : ∀ l ∈ leaves, l.1 ≠ k) (t : Branch κ α) :
    modifyAt f (k :: path) (assign leaves t) = (modifyAt f (k :: path) t).map (assign leaves) := by
  rw [modifyAt, modifyAt, child_assign h, Option.map_bind]
  congr 1
  funext c
  rw [Function.comp_apply, Option.map_map]
  congr 1
  funext c'
  rw [Function.comp_apply, assign_update]
  exact fun l hl hkey => absurd hkey (h l hl)

/-- Two edits below the same key. -/
theorem modifyAt_same (f g : Branch κ α → Branch κ α) (k : κ) (p q : List κ) (t : Branch κ α) :
    (modifyAt f (k :: p) t).bind (modifyAt g (k :: q)) =
      (child t k).bind fun c => ((modifyAt f p c).bind (modifyAt g q)).map fun c' =>
        Function.update t k (some (.node c')) := by
  rw [modifyAt]
  cases child t k with
  | none => rfl
  | some c =>
    rw [Option.bind_some, Option.bind_some]
    cases modifyAt f p c with
    | none => rfl
    | some c' =>
      rw [Option.map_some, Option.bind_some, Option.bind_some, modifyAt, child_update_self,
        Option.bind_some]
      simp only [Function.update_idem]

/-- Two edits below different keys. -/
theorem modifyAt_apart (f g : Branch κ α → Branch κ α) {k k' : κ} (hk : k ≠ k') (p q : List κ)
    (t : Branch κ α) :
    (modifyAt f (k :: p) t).bind (modifyAt g (k' :: q)) =
      ((child t k).bind (modifyAt f p)).bind fun c =>
        ((child t k').bind (modifyAt g q)).map fun d =>
          Function.update (Function.update t k (some (.node c))) k' (some (.node d)) := by
  rw [modifyAt]
  cases child t k with
  | none => rfl
  | some c =>
    rw [Option.bind_some, Option.bind_some]
    cases modifyAt f p c with
    | none => rfl
    | some c' =>
      rw [Option.map_some, Option.bind_some, Option.bind_some, modifyAt, child_update_of_ne hk]
      cases child t k' with
      | none => rfl
      | some d => rfl

theorem modifyAt_comm {p q : List κ} {leaves leaves' : List (κ × α)}
    (hspares : ∀ l ∈ leaves, ¬ p ++ [l.1] <+: q) (hspares' : ∀ l ∈ leaves', ¬ q ++ [l.1] <+: p)
    (hagrees : p = q → ∀ l ∈ leaves, ∀ l' ∈ leaves', l.1 = l'.1 → l.2 = l'.2) (t : Branch κ α) :
    (modifyAt (assign leaves) p t).bind (modifyAt (assign leaves') q) =
      (modifyAt (assign leaves') q t).bind (modifyAt (assign leaves) p) := by
  induction p generalizing q t with
  | nil =>
    cases q with
    | nil => exact congrArg some (assign_comm (hagrees rfl) t)
    | cons k q =>
      refine (assign_modifyAt ?_ t).trans (Option.map_eq_bind ..)
      rintro l hl rfl
      exact hspares l hl (List.prefix_append [l.1] q)
  | cons x p ih =>
    cases q with
    | nil =>
      refine ((assign_modifyAt ?_ t).trans (Option.map_eq_bind ..)).symm
      rintro l hl rfl
      exact hspares' l hl (List.prefix_append [l.1] p)
    | cons k q =>
      by_cases hk : x = k
      · subst hk
        rw [modifyAt_same, modifyAt_same]
        congr 1
        funext c
        rw [ih]
        · exact fun l hl hunder => hspares l hl ((List.prefix_cons_inj x).mpr hunder)
        · exact fun l hl hunder => hspares' l hl ((List.prefix_cons_inj x).mpr hunder)
        · exact fun heq => hagrees (congrArg _ heq)
      · rw [modifyAt_apart _ _ hk, modifyAt_apart _ _ (Ne.symm hk)]
        cases (child t x).bind (modifyAt (assign leaves) p) with
        | none =>
          cases (child t k).bind (modifyAt (assign leaves') q) with
          | none => rfl
          | some d => rfl
        | some c =>
          cases (child t k).bind (modifyAt (assign leaves') q) with
          | none => rfl
          | some d => exact congrArg some (Function.update_comm hk ..)

/-- **Edits that are not in each other's way commute**, or fail in either order. -/
theorem apply_comm {e e' : Edit κ α} (hspares : e.Spares e') (hspares' : e'.Spares e)
    (hagrees : e.Agrees e') (t : Branch κ α) :
    (e.apply t).bind e'.apply = (e'.apply t).bind e.apply :=
  modifyAt_comm hspares hspares' hagrees t

end Edit

/-! ### Lists of edits -/

/-- Edits, one after the other. -/
def applyAll (edits : List (Edit κ α)) (t : Branch κ α) : Option (Branch κ α) :=
  edits.foldl (fun t e => t.bind e.apply) (some t)

theorem foldl_bind (edits : List (Edit κ α)) (t : Option (Branch κ α)) :
    edits.foldl (fun t e => t.bind e.apply) t = t.bind (applyAll edits) := by
  cases t with
  | some t => rfl
  | none =>
    induction edits with
    | nil => rfl
    | cons e edits ih => exact ih

@[simp] theorem applyAll_cons (e : Edit κ α) (edits : List (Edit κ α)) (t : Branch κ α) :
    applyAll (e :: edits) t = (e.apply t).bind (applyAll edits) := foldl_bind edits (e.apply t)

theorem applyAll_append (edits edits' : List (Edit κ α)) (t : Branch κ α) :
    applyAll (edits ++ edits') t = (applyAll edits t).bind (applyAll edits') := by
  rw [applyAll, List.foldl_append, foldl_bind]
  rfl

/-- **Edits that are pairwise not in each other's way may come in any order.** -/
theorem applyAll_perm {edits edits' : List (Edit κ α)} (hperm : edits.Perm edits')
    (hspares : ∀ e ∈ edits, ∀ e' ∈ edits, e.Spares e')
    (hagrees : ∀ e ∈ edits, ∀ e' ∈ edits, e.Agrees e') (t : Branch κ α) :
    applyAll edits t = applyAll edits' t := by
  refine hperm.foldl_eq' ?_ _
  intro e he e' he' t
  cases t with
  | none => rfl
  | some t =>
    exact Edit.apply_comm (hspares e he e' he') (hspares e' he' e he) (hagrees e he e' he') t

/-- Edits none of which puts a leaf on the path of a later one succeed. -/
theorem applyAll_isSome {edits : List (Edit κ α)} (hspares : edits.Pairwise Edit.Spares)
    {t : Branch κ α} (hopen : ∀ e ∈ edits, Open t e.path) : (applyAll edits t).isSome := by
  induction edits generalizing t with
  | nil => rfl
  | cons e edits ih =>
    rw [List.pairwise_cons] at hspares
    obtain ⟨t', ht'⟩ := Option.isSome_iff_exists.mp
      (Edit.apply_isSome.mpr (hopen e (List.mem_cons_self ..)))
    have hnext : ∀ e' ∈ edits, Open t' e'.path := fun e' he' =>
      Edit.open_apply ht' (hspares.1 e' he') (hopen e' (List.mem_cons_of_mem e he'))
    rw [applyAll_cons, ht']
    exact ih hspares.2 hnext

end Tree

end Cheirizo
