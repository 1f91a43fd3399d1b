import Mathlib.Data.List.Basic
import Mathlib.Tactic.Common

/-!
# Upper and lower case

Case conversion of a systems language's string type. Each character is mapped on its own, by the
tables of the Unicode database, save that a capital sigma at the end of a word becomes a final one.
The tables are data; what is assumed of them holds of every version of the database.

Lower case and then upper case is not the identity on upper-case text: a character with no lower
case of its own, such as the ohm sign, comes back as another. It is the identity the second time.
-/

namespace Cheirizo

namespace Case

/-- What Unicode says about case. Nothing is assumed but what holds of ASCII. -/
structure Tables where
  lower : Char → List Char
  upper : Char → List Char
  cased : Char → Bool
  ignorable : Char → Bool
  lower_ascii : ∀ c, c.toNat < 128 → lower c = [c.toLower]
  upper_ascii : ∀ c, c.toNat < 128 → upper c = [c.toUpper]
  /-- The only ASCII characters that others are mapped to are letters. -/
  isAlpha_of_mem_lower : ∀ c d, 128 ≤ c.toNat → d ∈ lower c → d.toNat < 128 → d.isAlpha = true
  isAlpha_of_mem_upper : ∀ c d, 128 ≤ c.toNat → d ∈ upper c → d.toNat < 128 → d.isAlpha = true
  lower_sigma : lower 'Σ' = ['σ']
  upper_sigma : upper 'σ' = ['Σ']
  upper_finalSigma : upper 'ς' = ['Σ']
  sigma_notMem_lower : ∀ c, 'Σ' ∉ lower c
  fold_fold : ∀ c, ((lower c).flatMap upper).flatMap (fun d => (lower d).flatMap upper) =
    (lower c).flatMap upper

namespace Tables

variable (t : Tables)

/-- The upper case of the lower case of a character. -/
def fold (c : Char) : List Char := (t.lower c).flatMap t.upper

/-- Every character by itself. -/
def toUppercase (cs : List Char) : List Char := cs.flatMap t.upper

/-- A letter follows, perhaps behind marks. -/
def ignorableThenCased (cs : List Char) : Bool :=
  match cs.dropWhile t.ignorable with
  | c :: _ => t.cased c
  | [] => false

/-- Map what is left, with what is done in reverse. -/
def lowerFrom (before : List Char) : List Char → List Char
  | [] => []
  | c :: rest =>
    (if c = 'Σ' then
      if t.ignorableThenCased before && !t.ignorableThenCased rest then ['ς'] else ['σ']
    else t.lower c) ++ lowerFrom (c :: before) rest

/-- A final sigma depends on what is around it. -/
def toLowercase (cs : List Char) : List Char := t.lowerFrom [] cs

variable {t}

/-! ### ASCII -/

/-- What holds of the first 128 characters. -/
theorem of_ascii {p : Char → Prop} (h : ∀ n < 128, p (Char.ofNat n)) {c : Char}
    (hc : c.toNat < 128) : p c := by
  have hchar := h c.toNat hc
  rwa [Char.ofNat_toNat] at hchar

theorem toUpper_toLower_of_ascii {c : Char} (hc : c.toNat < 128) (hlower : c.isLower = false) :
    c.toLower.toUpper = c :=
  of_ascii (p := fun c => c.isLower = false → c.toLower.toUpper = c) (by decide) hc hlower

theorem toLower_lt_of_ascii {c : Char} (hc : c.toNat < 128) : c.toLower.toNat < 128 :=
  of_ascii (p := fun c => c.toLower.toNat < 128) (by decide) hc

theorem toLower_eq_self_of_ascii {c : Char} (hc : c.toNat < 128) (h : c.toLower.isAlpha = false) :
    c.toLower = c :=
  of_ascii (p := fun c => c.toLower.isAlpha = false → c.toLower = c) (by decide) hc h

theorem toUpper_eq_self_of_ascii {c : Char} (hc : c.toNat < 128) (h : c.toUpper.isAlpha = false) :
    c.toUpper = c :=
  of_ascii (p := fun c => c.toUpper.isAlpha = false → c.toUpper = c) (by decide) hc h

theorem toLower_of_not_isUpper {c : Char} (h : c.isUpper = false) : c.toLower = c :=
  dif_neg (of_decide_eq_false h)

/-! ### Lower case -/

theorem sigma_notMem_lowerFrom (before cs : List Char) : 'Σ' ∉ t.lowerFrom before cs := by
  induction cs generalizing before with
  | nil => exact List.not_mem_nil
  | cons c cs ih =>
    rw [lowerFrom, List.mem_append, not_or]
    refine ⟨?_, ih (c :: before)⟩
    split_ifs with hsigma hfinal
    · decide
    · decide
    · exact t.sigma_notMem_lower c

/-- Without a capital sigma every character is mapped on its own. -/
theorem lowerFrom_of_notMem {cs : List Char} (h : 'Σ' ∉ cs) (before : List Char) :
    t.lowerFrom before cs = cs.flatMap t.lower := by
  induction cs generalizing before with
  | nil => rfl
  | cons c cs ih =>
    rw [List.mem_cons, not_or] at h
    rw [lowerFrom, if_neg (Ne.symm h.1), ih h.2, List.flatMap_cons]

theorem lower_of_ascii {c : Char} (hc : c.toNat < 128) (hupper : c.isUpper = false) :
    t.lower c = [c] := by
  rw [t.lower_ascii c hc, toLower_of_not_isUpper hupper]

/-- A lower-case text stays lower case after other characters. -/
theorem toLowercase_append {front cs : List Char}
    (hfront : ∀ c ∈ front, c.toNat < 128 ∧ c.isUpper = false) (hcs : t.toLowercase cs = cs) :
    t.toLowercase (front ++ cs) = front ++ cs := by
  have hsigma : 'Σ' ∉ cs := hcs ▸ sigma_notMem_lowerFrom [] cs
  have hboth : 'Σ' ∉ front ++ cs := by
    rw [List.mem_append, not_or]
    exact ⟨fun h => absurd (hfront _ h).1 (by decide), hsigma⟩
  rw [toLowercase, lowerFrom_of_notMem hsigma] at hcs
  rw [toLowercase, lowerFrom_of_notMem hboth, List.flatMap_append, hcs,
    List.flatMap_congr fun c hc => lower_of_ascii (hfront c hc).1 (hfront c hc).2]
  exact congrArg (· ++ cs) (List.flatMap_singleton' front)

theorem toLowercase_of_ascii {cs : List Char}
    (h : ∀ c ∈ cs, c.toNat < 128 ∧ c.isUpper = false) : t.toLowercase cs = cs := by
  have happend : t.toLowercase (cs ++ []) = cs ++ [] := toLowercase_append h rfl
  rwa [List.append_nil] at happend

/-! ### Folding -/

/-- Upper case forgets which lower-case sigma it was. -/
theorem toUppercase_toLowercase (cs : List Char) :
    t.toUppercase (t.toLowercase cs) = cs.flatMap t.fold := by
  have hfrom : ∀ before, t.toUppercase (t.lowerFrom before cs) = cs.flatMap t.fold := by
    induction cs with
    | nil => exact fun _ => rfl
    | cons c cs ih =>
      intro before
      rw [lowerFrom, toUppercase, List.flatMap_append, ← toUppercase, ← toUppercase, ih,
        List.flatMap_cons]
      congr 1
      split_ifs with hsigma hfinal
      · rw [hsigma, fold, t.lower_sigma, List.flatMap_singleton, t.upper_sigma, toUppercase,
          List.flatMap_singleton, t.upper_finalSigma]
      · rw [hsigma, fold, t.lower_sigma, toUppercase]
      · rfl
  exact hfrom []

/-- The second time nothing changes. -/
theorem flatMap_fold_fold (cs : List Char) :
    (cs.flatMap t.fold).flatMap t.fold = cs.flatMap t.fold := by
  rw [List.flatMap_assoc]
  exact List.flatMap_congr fun c _ => t.fold_fold c

theorem fold_of_ascii {c : Char} (hc : c.toNat < 128) (hlower : c.isLower = false) :
    t.fold c = [c] := by
  rw [fold, t.lower_ascii c hc, List.flatMap_singleton, t.upper_ascii _ (toLower_lt_of_ascii hc),
    toUpper_toLower_of_ascii hc hlower]

theorem flatMap_fold_of_ascii {cs : List Char}
    (h : ∀ c ∈ cs, c.toNat < 128 ∧ c.isLower = false) : cs.flatMap t.fold = cs := by
  rw [List.flatMap_congr fun c hc => fold_of_ascii (h c hc).1 (h c hc).2]
  exact List.flatMap_singleton' cs

/-- Nothing but letters appears. -/
theorem mem_of_mem_fold {c d : Char} (hd : d.toNat < 128) (halpha : d.isAlpha = false)
    (h : d ∈ t.fold c) : d = c := by
  obtain ⟨e, he, hde⟩ := List.mem_flatMap.mp h
  have hupper : d = e := by
    by_cases hascii : e.toNat < 128
    · rw [t.upper_ascii e hascii, List.mem_singleton] at hde
      subst hde
      exact toUpper_eq_self_of_ascii hascii halpha
    · have hletter := t.isAlpha_of_mem_upper e d (Nat.le_of_not_lt hascii) hde hd
      exact absurd (hletter.symm.trans halpha) Bool.false_ne_true.symm
  subst hupper
  by_cases hascii : c.toNat < 128
  · rw [t.lower_ascii c hascii, List.mem_singleton] at he
    subst he
    exact toLower_eq_self_of_ascii hascii halpha
  · have hletter := t.isAlpha_of_mem_lower c d (Nat.le_of_not_lt hascii) he hd
    exact absurd (hletter.symm.trans halpha) Bool.false_ne_true.symm

theorem notMem_flatMap_fold {cs : List Char} {d : Char} (hd : d.toNat < 128)
    (halpha : d.isAlpha = false) (h : d ∉ cs) : d ∉ cs.flatMap t.fold := by
  intro hmem
  obtain ⟨c, hc, hfold⟩ := List.mem_flatMap.mp hmem
  exact h (mem_of_mem_fold hd halpha hfold ▸ hc)

/-! ### The tables of ASCII and Greek sigma -/

theorem toUpper_of_not_ascii {c : Char} (h : 128 ≤ c.toNat) : c.toUpper = c := by
  have hz : ¬ c.toNat ≤ 'z'.toNat := by
    have hval : 'z'.toNat = 122 := rfl
    omega
  exact dif_neg fun hlower => hz hlower.2

theorem toLower_of_not_ascii {c : Char} (h : 128 ≤ c.toNat) : c.toLower = c := by
  have hz : ¬ c.toNat ≤ 'Z'.toNat := by
    have hval : 'Z'.toNat = 90 := rfl
    omega
  exact dif_neg fun hupper => hz hupper.2

/-- The lower case of ASCII, and of sigma. -/
def asciiLower (c : Char) : Char := if c = 'Σ' then 'σ' else c.toLower

/-- The upper case of ASCII, and of sigma. -/
def asciiUpper (c : Char) : Char := if c = 'σ' ∨ c = 'ς' then 'Σ' else c.toUpper

theorem asciiLower_of_ascii {c : Char} (hc : c.toNat < 128) : asciiLower c = c.toLower :=
  if_neg (by
    rintro rfl
    exact absurd hc (by decide))

theorem asciiUpper_of_ascii {c : Char} (hc : c.toNat < 128) : asciiUpper c = c.toUpper :=
  if_neg (by
    rintro (rfl | rfl)
    · exact absurd hc (by decide)
    · exact absurd hc (by decide))

theorem asciiLower_of_not_ascii {c : Char} (hc : 128 ≤ c.toNat) :
    asciiLower c = c ∨ asciiLower c = 'σ' := by
  rw [asciiLower]
  split_ifs with hsigma
  · exact Or.inr rfl
  · exact Or.inl (toLower_of_not_ascii hc)

theorem asciiUpper_of_not_ascii {c : Char} (hc : 128 ≤ c.toNat) :
    asciiUpper c = c ∨ asciiUpper c = 'Σ' := by
  rw [asciiUpper]
  split_ifs with hsigma
  · exact Or.inr rfl
  · exact Or.inl (toUpper_of_not_ascii hc)

/-- ASCII, and the sigmas. -/
def ascii : Tables where
  lower c := [asciiLower c]
  upper c := [asciiUpper c]
  cased c := c.isAlpha
  ignorable c := c = ':' || c = '.' || c = '\''
  lower_ascii c hc := congrArg (fun d => [d]) (asciiLower_of_ascii hc)
  upper_ascii c hc := congrArg (fun d => [d]) (asciiUpper_of_ascii hc)
  isAlpha_of_mem_lower c d hc hd hascii := by
    rw [List.mem_singleton] at hd
    obtain hself | hsigma := asciiLower_of_not_ascii hc
    · rw [hd, hself] at hascii
      omega
    · rw [hd, hsigma] at hascii
      exact absurd hascii (by decide)
  isAlpha_of_mem_upper c d hc hd hascii := by
    rw [List.mem_singleton] at hd
    obtain hself | hsigma := asciiUpper_of_not_ascii hc
    · rw [hd, hself] at hascii
      omega
    · rw [hd, hsigma] at hascii
      exact absurd hascii (by decide)
  lower_sigma := rfl
  upper_sigma := rfl
  upper_finalSigma := rfl
  sigma_notMem_lower c := by
    rw [List.mem_singleton]
    intro heq
    by_cases hascii : c.toNat < 128
    · rw [asciiLower_of_ascii hascii] at heq
      exact absurd (heq ▸ toLower_lt_of_ascii hascii) (by decide)
    · rw [asciiLower] at heq
      split_ifs at heq with hsigma
      · exact absurd heq (by decide)
      · rw [toLower_of_not_ascii (Nat.le_of_not_lt hascii)] at heq
        exact hsigma heq.symm
  fold_fold c := by
    have hfold : asciiUpper (asciiLower (asciiUpper (asciiLower c))) =
        asciiUpper (asciiLower c) := by
      by_cases hascii : c.toNat < 128
      · exact of_ascii (p := fun c => asciiUpper (asciiLower (asciiUpper (asciiLower c))) =
          asciiUpper (asciiLower c)) (by decide) hascii
      have hc := Nat.le_of_not_lt hascii
      obtain hself | hsigma := asciiLower_of_not_ascii hc
      · rw [hself]
        obtain hself' | hsigma := asciiUpper_of_not_ascii hc
        · rw [hself', hself, hself']
        · rw [hsigma]
          rfl
      · rw [hsigma]
        rfl
    simp only [List.flatMap_singleton, hfold]

end Tables

end Case

end Cheirizo
