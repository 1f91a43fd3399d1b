import Mathlib.Data.List.Basic
import Mathlib.Tactic.Common

/-!
# Glob patterns

A pattern whose stars stand for any text without a path separator. A pattern without a star is the
path itself; one with a single star, in its last component, is a text in front and a text at the
end that do not share characters.

## Main definitions

* `Glob.Matches` — the paths a pattern stands for
* `Glob.fill` — a pattern with a character in place of every star

## Main results

* `Glob.matches_of_notMem`, `Glob.matches_cut`, `Glob.matches_one_star_iff` — patterns without a
  star, with none up to a separator, and with one
* `Glob.exists_between_iff` — testing both ends is enough unless they overlap
-/

namespace Cheirizo

namespace Glob

/-- The texts a character of a pattern stands for. -/
def Fits (c : Char) (text : List Char) : Prop := if c = '*' then '/' ∉ text else text = [c]

/-- The paths a pattern stands for. -/
def Matches : List Char → List Char → Prop
  | [], path => path = []
  | c :: pattern, path => ∃ text rest, path = text ++ rest ∧ Fits c text ∧ Matches pattern rest

/-- A character in place of every star. -/
def fill (c : Char) (pattern : List Char) : List Char :=
  pattern.map fun p => if p = '*' then c else p

/-- Some characters at the end of the first text start the second one. -/
def Overlap (stem suffix : List Char) : Prop := ∃ u, u ≠ [] ∧ u <:+ stem ∧ u <+: suffix

theorem matches_append {p q path : List Char} :
    Matches (p ++ q) path ↔ ∃ a b, path = a ++ b ∧ Matches p a ∧ Matches q b := by
  induction p generalizing path with
  | nil => simp [Matches]
  | cons c p ih =>
    simp only [List.cons_append, Matches, ih]
    constructor
    · rintro ⟨text, -, rfl, hfits, a, b, rfl, ha, hb⟩
      exact ⟨text ++ a, b, (List.append_assoc _ _ _).symm, ⟨text, a, rfl, hfits, ha⟩, hb⟩
    · rintro ⟨-, b, rfl, ⟨text, a, rfl, hfits, ha⟩, hb⟩
      exact ⟨text, a ++ b, List.append_assoc _ _ _, hfits, a, b, rfl, ha, hb⟩

/-- Without a star a pattern is a path. -/
theorem matches_of_notMem {pattern path : List Char} (h : '*' ∉ pattern) :
    Matches pattern path ↔ path = pattern := by
  induction pattern generalizing path with
  | nil => exact Iff.rfl
  | cons c pattern ih =>
    obtain ⟨hc, hpattern⟩ : ¬ '*' = c ∧ '*' ∉ pattern := by simpa using h
    simp [Matches, Fits, Ne.symm hc, ih hpattern]

theorem matches_star_iff {pattern path : List Char} :
    Matches ('*' :: pattern) path ↔
      ∃ text rest, path = text ++ rest ∧ '/' ∉ text ∧ Matches pattern rest := by
  simp [Matches, Fits]

/-- Up to a separator without a star before it, a path has the pattern's own text. -/
theorem matches_cut {dir q path : List Char} (hdir : '*' ∉ dir) :
    Matches (dir ++ '/' :: q) path ↔ ∃ name, path = dir ++ '/' :: name ∧ Matches q name := by
  have hstar : '*' ∉ dir ++ ['/'] := by simpa using hdir
  rw [List.append_cons, matches_append]
  simp [matches_of_notMem hstar]

/-- A pattern with one star in a component. -/
theorem matches_one_star_iff {stem suffix name : List Char} (hstem : '*' ∉ stem)
    (hsuffix : '*' ∉ suffix) (hname : '/' ∉ name) :
    Matches (stem ++ '*' :: suffix) name ↔ ∃ text, name = stem ++ (text ++ suffix) := by
  simp only [matches_append, matches_of_notMem hstem, matches_star_iff, matches_of_notMem hsuffix]
  constructor
  · rintro ⟨_, _, rfl, rfl, text, _, rfl, -, rfl⟩
    exact ⟨text, rfl⟩
  · rintro ⟨text, rfl⟩
    refine ⟨stem, text ++ suffix, rfl, rfl, text, suffix, rfl, fun h => hname ?_, rfl⟩
    simp [h]

/-- What is not a star is kept. -/
theorem mem_of_matches {pattern path : List Char} (h : Matches pattern path) {c : Char}
    (hc : c ≠ '*') (hmem : c ∈ pattern) : c ∈ path := by
  induction pattern generalizing path with
  | nil => exact absurd hmem List.not_mem_nil
  | cons p pattern ih =>
    obtain ⟨text, rest, rfl, hfits, hrest⟩ := h
    obtain rfl | hmem := List.mem_cons.mp hmem
    · rw [Fits, if_neg hc] at hfits
      simp [hfits]
    · exact List.mem_append_right _ (ih hrest hmem)

/-- Separators come from the pattern. -/
theorem slash_notMem_of_matches {pattern path : List Char} (h : Matches pattern path)
    (hslash : '/' ∉ pattern) : '/' ∉ path := by
  induction pattern generalizing path with
  | nil =>
    cases h
    exact List.not_mem_nil
  | cons p pattern ih =>
    obtain ⟨text, rest, rfl, hfits, hrest⟩ := h
    obtain ⟨hp, hpattern⟩ : ¬ '/' = p ∧ '/' ∉ pattern := by simpa using hslash
    rw [List.mem_append, not_or]
    refine ⟨?_, ih hrest hpattern⟩
    unfold Fits at hfits
    split_ifs at hfits
    · exact hfits
    · simpa [hfits] using hp

/-! ### Filling the stars -/

theorem matches_fill {c : Char} (hc : c ≠ '/') (pattern : List Char) :
    Matches pattern (fill c pattern) := by
  induction pattern with
  | nil => rfl
  | cons p pattern ih =>
    refine ⟨[if p = '*' then c else p], fill c pattern, rfl, ?_, ih⟩
    unfold Fits
    split_ifs
    · simpa using hc.symm
    · rfl

theorem fill_append (c : Char) (p q : List Char) : fill c (p ++ q) = fill c p ++ fill c q :=
  List.map_append

theorem fill_of_notMem {c : Char} {pattern : List Char} (h : '*' ∉ pattern) :
    fill c pattern = pattern := by
  have hkeeps : ∀ p ∈ pattern, (if p = '*' then c else p) = p := by
    rintro p hp
    exact if_neg (ne_of_mem_of_not_mem hp h)
  rw [fill, List.map_congr_left hkeeps, List.map_id']

theorem mem_fill {c d : Char} {pattern : List Char} (h : d ∈ fill c pattern) :
    d = c ∨ d ≠ '*' ∧ d ∈ pattern := by
  obtain ⟨p, hp, rfl⟩ := List.mem_map.mp h
  split_ifs with hstar
  · exact Or.inl rfl
  · exact Or.inr ⟨hstar, hp⟩

/-! ### The ends of a text -/

/-- A text with the given ends, where these do not overlap, has something between them. -/
theorem exists_between_iff {stem suffix : List Char} (h : ¬ Overlap stem suffix)
    (name : List Char) :
    (∃ text, name = stem ++ (text ++ suffix)) ↔ stem <+: name ∧ suffix <:+ name := by
  constructor
  · rintro ⟨text, rfl⟩
    exact ⟨List.prefix_append _ _, (List.suffix_append _ _).trans (List.suffix_append _ _)⟩
  · rintro ⟨⟨rest, rfl⟩, front, hfront⟩
    obtain ⟨u, hstem, hsuffix⟩ | ⟨text, -, hrest⟩ := List.append_eq_append_iff.mp hfront
    · by_cases hu : u = []
      · subst hu
        exact ⟨[], by simpa using hsuffix.symm⟩
      · exact absurd ⟨u, hu, ⟨front, hstem.symm⟩, ⟨rest, hsuffix.symm⟩⟩ h
    · exact ⟨text, by rw [hrest]⟩

/-- Where they overlap, joined with what they share written once they are too short. -/
theorem not_exists_between {front u rest : List Char} (hu : u ≠ []) :
    ¬ ∃ text, front ++ u ++ rest = front ++ u ++ (text ++ (u ++ rest)) := by
  rintro ⟨text, h⟩
  have hlength := congrArg List.length h
  have hpos := List.length_pos_iff.mpr hu
  simp only [List.length_append] at hlength
  omega

/-- A text that starts two texts ends before they part. -/
theorem prefix_of_prefix_of_ne {p s r r' : List Char} {a b : Char} (hab : a ≠ b)
    (ha : p <+: s ++ a :: r) (hb : p <+: s ++ b :: r') : p <+: s := by
  induction s generalizing p with
  | nil =>
    cases p with
    | nil => exact List.nil_prefix
    | cons c p =>
      have hac : c = a := (List.cons_prefix_cons.mp ha).1
      have hbc : c = b := (List.cons_prefix_cons.mp hb).1
      exact absurd (hac.symm.trans hbc) hab
  | cons d s ih =>
    cases p with
    | nil => exact List.nil_prefix
    | cons c p =>
      obtain ⟨hc, ha⟩ := List.cons_prefix_cons.mp ha
      exact List.cons_prefix_cons.mpr ⟨hc, ih ha (List.cons_prefix_cons.mp hb).2⟩

end Glob

end Cheirizo
