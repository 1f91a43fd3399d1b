import Mathlib.Logic.Basic

/-!
# Computations that may fail

A sequence of steps returns a value if each of them does. These are the inversions, one for each way
to put a fallible computation together.
-/

namespace Cheirizo

namespace Fallible

universe u v

variable {ε ε' : Type u} {α β : Type v}

theorem bind_eq_ok {x : Except ε α} {f : α → Except ε β} {b : β} :
    (x >>= f) = .ok b ↔ ∃ a, x = .ok a ∧ f a = .ok b := by
  cases x with
  | error e =>
    refine iff_of_false (fun h => ?_) (fun ⟨a, h, _⟩ => ?_)
    · cases h
    · cases h
  | ok a =>
    refine ⟨fun h => ⟨a, rfl, h⟩, fun ⟨a', h, hf⟩ => ?_⟩
    obtain rfl := Except.ok.inj h
    exact hf

theorem mapError_eq_ok {f : ε → ε'} {x : Except ε α} {a : α} :
    x.mapError f = .ok a ↔ x = .ok a := by
  cases x with
  | error e =>
    refine iff_of_false (fun h => ?_) (fun h => ?_)
    · cases h
    · cases h
  | ok a' =>
    refine ⟨fun h => ?_, fun h => ?_⟩
    · obtain rfl := Except.ok.inj h
      rfl
    · obtain rfl := Except.ok.inj h
      rfl

theorem map_eq_ok {f : α → β} {x : Except ε α} {b : β} :
    x.map f = .ok b ↔ ∃ a, x = .ok a ∧ f a = b := by
  cases x with
  | error e =>
    refine iff_of_false (fun h => ?_) (fun ⟨a, h, _⟩ => ?_)
    · cases h
    · cases h
  | ok a =>
    refine ⟨fun h => ⟨a, rfl, Except.ok.inj h⟩, fun ⟨a', h, hf⟩ => ?_⟩
    obtain rfl := Except.ok.inj h
    exact congrArg Except.ok hf

theorem guard_eq_ok {c : Prop} [Decidable c] {e : ε} {x : Except ε α} {a : α} :
    (if c then .error e else x) = .ok a ↔ ¬ c ∧ x = .ok a := by
  by_cases hc : c
  · rw [if_pos hc]
    refine iff_of_false (fun h => ?_) (fun h => h.1 hc)
    cases h
  · rw [if_neg hc]
    exact (and_iff_right hc).symm

end Fallible

end Cheirizo
