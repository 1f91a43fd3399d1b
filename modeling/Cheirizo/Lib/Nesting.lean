import Mathlib.Algebra.BigOperators.Group.List.Basic
import Mathlib.Algebra.Order.Ring.Int
import Mathlib.Data.List.Infix
import Mathlib.Tactic.Common

/-!
# Nesting and escapes

A text whose groups are marked by an opening and a closing symbol, and in which an escape symbol
takes the meaning of the symbol after it. Only the kinds of the symbols matter here. A text is
balanced if no prefix closes more groups than it opens, and all are closed in the end.

## Main definitions

* `Token`, `level` — groups opened and not closed
* `braces` — the symbols that count
* `unescaped`, `escaped` — the symbols that keep their meaning, and those that do not
* `dangling` — an escape with nothing to take
* `Within` — levels between two bounds
* `Balanced`

## Main results

* `unescaped_append` — escapes in a text of two parts
* `level_unescaped_add_escaped` — every symbol counts once
* `balanced_unescaped_iff` — balance, from the levels of the whole text
* `within_braces`, `balanced_of_braces` — only the braces matter
-/

namespace Cheirizo

namespace Nesting

/-- What matters of a character for how braces nest. -/
inductive Token where
  | opening
  | closing
  | escape
  | other
  deriving DecidableEq, Repr

/-- What a symbol adds to the level. -/
def Token.step : Token → ℤ
  | .opening => 1
  | .closing => -1
  | .escape => 0
  | .other => 0

/-- The groups that are opened, less those that are closed. -/
def level (ts : List Token) : ℤ := (ts.map Token.step).sum

/-- The symbols that count. -/
def braces (ts : List Token) : List Token := ts.filter fun t => t.step ≠ 0

/-- The symbols that no escape in front has taken; whether one stands in front of the first is
told. -/
def unescaped : Bool → List Token → List Token
  | _, [] => []
  | true, _ :: ts => unescaped false ts
  | false, t :: ts => t :: unescaped (t = .escape) ts

/-- The symbols that an escape in front has taken. -/
def escaped : Bool → List Token → List Token
  | _, [] => []
  | true, t :: ts => t :: escaped false ts
  | false, t :: ts => escaped (t = .escape) ts

/-- An escape is left that has nothing to take. -/
def dangling : Bool → List Token → Bool
  | taken, [] => taken
  | true, _ :: ts => dangling false ts
  | false, t :: ts => dangling (t = .escape) ts

/-- From a level on, no prefix leaves the range. -/
def Within (lo hi n : ℤ) (ts : List Token) : Prop :=
  ∀ front, front <+: ts → lo ≤ n + level front ∧ n + level front < hi

/-- No prefix closes more groups than it opens, and no group is left open. -/
structure Balanced (ts : List Token) : Prop where
  nonneg : ∀ front, front <+: ts → 0 ≤ level front
  closed : level ts = 0

instance (ts : List Token) : Decidable (Balanced ts) :=
  decidable_of_iff ((∀ front ∈ ts.inits, 0 ≤ level front) ∧ level ts = 0)
    ⟨fun h => ⟨fun front hfront => h.1 front ((List.mem_inits _ _).mpr hfront), h.2⟩,
      fun h => ⟨fun front hfront => h.nonneg front ((List.mem_inits _ _).mp hfront), h.closed⟩⟩

/-! ### Levels -/

@[simp]
theorem level_nil : level [] = 0 := rfl

@[simp]
theorem level_cons (t : Token) (ts : List Token) : level (t :: ts) = t.step + level ts := by
  rw [level, List.map_cons, List.sum_cons, level]

/-- Levels add up. -/
theorem level_append (ts us : List Token) : level (ts ++ us) = level ts + level us := by
  rw [level, List.map_append, List.sum_append, level, level]

/-- The braces of a text of two parts. -/
theorem braces_append (ts us : List Token) : braces (ts ++ us) = braces ts ++ braces us :=
  List.filter_append ..

theorem braces_eq_nil {ts : List Token} (h : ∀ t ∈ ts, t.step = 0) : braces ts = [] :=
  List.filter_eq_nil_iff.mpr fun t ht => by simpa using h t ht

/-- Only the braces change the level. -/
theorem level_braces (ts : List Token) : level (braces ts) = level ts := by
  induction ts with
  | nil => rfl
  | cons t ts ih =>
    rw [braces, List.filter_cons, ← braces, level_cons]
    split_ifs with h
    · rw [level_cons, ih]
    · have hstep : t.step = 0 := by simpa using h
      rw [ih, hstep, zero_add]

theorem level_eq_zero {ts : List Token} (h : ∀ t ∈ ts, t.step = 0) : level ts = 0 := by
  rw [← level_braces, braces_eq_nil h, level_nil]

section Within

variable {lo hi n : ℤ} {t : Token} {ts : List Token}

theorem within_nil : Within lo hi n [] ↔ lo ≤ n ∧ n < hi := by
  constructor
  · intro h
    simpa using h [] List.nil_prefix
  · intro h front hfront
    rw [List.prefix_nil.mp hfront]
    simpa using h

/-- A text stays between the bounds from its first symbol on. -/
theorem within_cons :
    Within lo hi n (t :: ts) ↔ (lo ≤ n ∧ n < hi) ∧ Within lo hi (n + t.step) ts := by
  constructor
  · intro h
    refine ⟨by simpa using h [] List.nil_prefix, fun front hfront => ?_⟩
    have hlevel := h (t :: front) (List.cons_prefix_cons.mpr ⟨rfl, hfront⟩)
    rwa [level_cons, ← add_assoc] at hlevel
  · rintro ⟨hn, h⟩ front hfront
    obtain rfl | ⟨later, rfl, hlater⟩ := List.prefix_cons_iff.mp hfront
    · simpa using hn
    · rw [level_cons, ← add_assoc]
      exact h later hlater

theorem Within.start (h : Within lo hi n ts) : lo ≤ n ∧ n < hi := by
  simpa using h [] List.nil_prefix

/-- A text of two parts, the second from the level of the first. -/
theorem within_append {us : List Token} : Within lo hi n (ts ++ us) ↔
    Within lo hi n ts ∧ Within lo hi (n + level ts) us := by
  induction ts generalizing n with
  | nil =>
    rw [List.nil_append, level_nil, add_zero, within_nil]
    exact ⟨fun h => ⟨h.start, h⟩, fun h => h.2⟩
  | cons t ts ih =>
    rw [List.cons_append, within_cons, within_cons, ih, level_cons, add_assoc]
    exact and_assoc.symm

/-- Only the braces matter for the bounds. -/
theorem within_braces : Within lo hi n (braces ts) ↔ Within lo hi n ts := by
  induction ts generalizing n with
  | nil => rfl
  | cons t ts ih =>
    rw [braces, List.filter_cons, ← braces, within_cons]
    split_ifs with h
    · rw [within_cons, ih]
    · have hstep : t.step = 0 := by simpa using h
      rw [ih, hstep, add_zero]
      exact ⟨fun h => ⟨h.start, h⟩, fun h => h.2⟩

end Within

/-! ### Balance -/

/-- A text is balanced if its braces are. -/
theorem balanced_of_braces {ts : List Token} (h : Balanced (braces ts)) : Balanced ts where
  nonneg := fun front hfront => by
    rw [← level_braces]
    exact h.nonneg _ (hfront.filter _)
  closed := by
    rw [← level_braces]
    exact h.closed

/-! ### Escapes -/

/-- What keeps its meaning is in the text. -/
theorem mem_of_mem_unescaped {taken : Bool} {ts : List Token} {t : Token}
    (h : t ∈ unescaped taken ts) : t ∈ ts := by
  induction ts generalizing taken with
  | nil => cases taken <;> exact h
  | cons u ts ih =>
    cases taken with
    | true => exact List.mem_cons_of_mem u (ih h)
    | false =>
      rw [unescaped] at h
      obtain rfl | h := List.mem_cons.mp h
      · exact List.mem_cons_self
      · exact List.mem_cons_of_mem u (ih h)

/-- Whether the second part begins after an escape depends on the first. -/
theorem unescaped_append (taken : Bool) (ts us : List Token) :
    unescaped taken (ts ++ us) = unescaped taken ts ++ unescaped (dangling taken ts) us := by
  induction ts generalizing taken with
  | nil => cases taken <;> rfl
  | cons t ts ih =>
    cases taken with
    | true => rw [List.cons_append, unescaped, unescaped, dangling, ih]
    | false => rw [List.cons_append, unescaped, unescaped, dangling, ih, List.cons_append]

/-- The same of an escape at the end. -/
theorem dangling_append (taken : Bool) (ts us : List Token) :
    dangling taken (ts ++ us) = dangling (dangling taken ts) us := by
  induction ts generalizing taken with
  | nil => cases taken <;> rfl
  | cons t ts ih => cases taken <;> rw [List.cons_append, dangling, dangling, ih]

/-- The same of the symbols that are taken. -/
theorem escaped_append (taken : Bool) (ts us : List Token) :
    escaped taken (ts ++ us) = escaped taken ts ++ escaped (dangling taken ts) us := by
  induction ts generalizing taken with
  | nil => cases taken <;> rfl
  | cons t ts ih =>
    cases taken with
    | true => rw [List.cons_append, escaped, escaped, dangling, ih, List.cons_append]
    | false => rw [List.cons_append, escaped, escaped, dangling, ih]

/-- Every symbol counts once, whether an escape has taken it or not. -/
theorem level_unescaped_add_escaped (taken : Bool) (ts : List Token) :
    level (unescaped taken ts) + level (escaped taken ts) = level ts := by
  induction ts generalizing taken with
  | nil => cases taken <;> rfl
  | cons t ts ih =>
    cases taken with
    | true => rw [unescaped, escaped, level_cons, level_cons, ← ih false, add_left_comm]
    | false => rw [unescaped, escaped, level_cons, level_cons, add_assoc, ih]

/-- What is left of a text starts with what is left of its beginnings, and with nothing else. -/
theorem prefix_unescaped_iff {taken : Bool} {front ts : List Token} :
    front <+: unescaped taken ts ↔ ∃ start, start <+: ts ∧ unescaped taken start = front := by
  constructor
  · intro h
    induction ts generalizing taken front with
    | nil => exact ⟨[], List.prefix_rfl, by cases taken <;> exact (List.prefix_nil.mp h).symm⟩
    | cons t ts ih =>
      cases taken with
      | true =>
        obtain ⟨start, hstart, rfl⟩ := @ih false _ h
        exact ⟨t :: start, List.cons_prefix_cons.mpr ⟨rfl, hstart⟩, rfl⟩
      | false =>
        rw [unescaped] at h
        obtain rfl | ⟨later, rfl, hlater⟩ := List.prefix_cons_iff.mp h
        · exact ⟨[], List.nil_prefix, rfl⟩
        · obtain ⟨start, hstart, rfl⟩ := ih hlater
          exact ⟨t :: start, List.cons_prefix_cons.mpr ⟨rfl, hstart⟩, rfl⟩
  · rintro ⟨start, ⟨later, rfl⟩, rfl⟩
    rw [unescaped_append]
    exact List.prefix_append _ _

theorem balanced_unescaped_iff {taken : Bool} {ts : List Token} :
    Balanced (unescaped taken ts) ↔ (∀ front, front <+: ts → 0 ≤ level (unescaped taken front)) ∧
      level (unescaped taken ts) = 0 := by
  constructor
  · intro h
    exact ⟨fun front hfront => h.nonneg _ (prefix_unescaped_iff.mpr ⟨front, hfront, rfl⟩), h.closed⟩
  · rintro ⟨hnonneg, hclosed⟩
    refine ⟨fun front hfront => ?_, hclosed⟩
    obtain ⟨start, hstart, rfl⟩ := prefix_unescaped_iff.mp hfront
    exact hnonneg start hstart

end Nesting

end Cheirizo
