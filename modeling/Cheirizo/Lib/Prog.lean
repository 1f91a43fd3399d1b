import Mathlib.Data.List.Basic
import Mathlib.Tactic.Common

/-!
# Computations that fail without undoing

`Prog σ ε α` is a computation over a state `σ` that ends in a value or in an error `ε`. A failing
computation keeps what it did to the state before it failed: this is the meaning of an early return
in code that works on shared state, and the reason the error carries no state of its own to roll
back to.

## Ways to specify

`Prog.Post x s Q` says what holds of the outcome and the final state of `x` started in `s`; it is
computed by the rules below, one per combinator. `Prog.Steps R x` says that `x` relates every
initial state to its final one by `R`, whatever the outcome; for a preorder `R` it is closed under
sequencing, so it is the way to state frame conditions and growing logs. `Prog.Fails R x` says the
same of the runs that fail. `Prog.Respects R x` relates two runs of the same computation, from
states that `R` does not tell apart.
-/

namespace Cheirizo

universe u

/-- A computation over `σ` ending in a value or an error, the state being kept either way. -/
def Prog (σ ε : Type u) (α : Type u) : Type u := σ → Except ε α × σ

namespace Prog

variable {σ ε α β : Type u}

/-- Run a computation from a state. -/
def run (x : Prog σ ε α) (s : σ) : Except ε α × σ := x s

/-- A program that does nothing. -/
protected def pure (a : α) : Prog σ ε α := fun s => (.ok a, s)

/-- An error ends the program, and leaves the state as it was then. -/
protected def bind (x : Prog σ ε α) (f : α → Prog σ ε β) : Prog σ ε β := fun s =>
  match x s with
  | (.ok a, s') => f a s'
  | (.error e, s') => (.error e, s')

instance : Monad (Prog σ ε) where
  pure := Prog.pure
  bind := Prog.bind

/-- Fail. -/
def fail (e : ε) : Prog σ ε α := fun s => (.error e, s)

/-- The current state. -/
def get : Prog σ ε σ := fun s => (.ok s, s)

/-- Change the state. -/
def modify (f : σ → σ) : Prog σ ε PUnit := fun s => (.ok ⟨⟩, f s)

/-- Run a computation and hand its outcome, error or value, to what follows. -/
def attempt (x : Prog σ ε α) : Prog σ ε (Except ε α) := fun s => (.ok (x s).1, (x s).2)

/-- Read a value off the state. -/
def gets (f : σ → α) : Prog σ ε α := fun s => (.ok (f s), s)

/-! ### What a run computes -/

@[simp] theorem run_pure (a : α) (s : σ) : (pure a : Prog σ ε α).run s = (.ok a, s) := rfl

@[simp] theorem run_fail (e : ε) (s : σ) : (fail e : Prog σ ε α).run s = (.error e, s) := rfl

@[simp] theorem run_get (s : σ) : (get : Prog σ ε σ).run s = (.ok s, s) := rfl

@[simp] theorem run_gets (f : σ → α) (s : σ) : (gets f : Prog σ ε α).run s = (.ok (f s), s) := rfl

@[simp] theorem run_modify (f : σ → σ) (s : σ) :
    (modify f : Prog σ ε PUnit).run s = (.ok ⟨⟩, f s) := rfl

@[simp] theorem run_attempt (x : Prog σ ε α) (s : σ) :
    x.attempt.run s = (.ok (x.run s).1, (x.run s).2) := rfl

/-- An error ends the computation, with the state it left. -/
theorem run_bind (x : Prog σ ε α) (f : α → Prog σ ε β) (s : σ) :
    (x >>= f).run s =
      match x.run s with
      | (.ok a, s') => (f a).run s'
      | (.error e, s') => (.error e, s') := rfl

/-- The rest runs from the state of the first part. -/
theorem run_bind_of_ok {x : Prog σ ε α} {f : α → Prog σ ε β} {s : σ} {a : α}
    (h : (x.run s).1 = .ok a) : (x >>= f).run s = (f a).run (x.run s).2 := by
  rw [run_bind]
  rcases hr : x.run s with ⟨_ | _, _⟩
  · rw [hr] at h
    cases h
  · rw [hr] at h
    cases h
    rfl

/-- The rest does not run. -/
theorem run_bind_of_error {x : Prog σ ε α} {f : α → Prog σ ε β} {s : σ} {e : ε}
    (h : (x.run s).1 = .error e) : (x >>= f).run s = (.error e, (x.run s).2) := by
  rw [run_bind]
  rcases hr : x.run s with ⟨_ | _, _⟩
  · rw [hr] at h
    cases h
    rfl
  · rw [hr] at h
    cases h

@[simp] theorem run_ite {p : Prop} [Decidable p] (x y : Prog σ ε α) (s : σ) :
    (if p then x else y).run s = if p then x.run s else y.run s := by
  split <;> rfl

/-- A sequence that returned a value did so through both of its parts. -/
theorem bind_eq_ok {x : Prog σ ε α} {f : α → Prog σ ε β} {s : σ} {b : β}
    (h : ((x >>= f).run s).1 = .ok b) :
    ∃ a, (x.run s).1 = .ok a ∧ ((f a).run (x.run s).2).1 = .ok b := by
  rw [run_bind] at h
  rcases hr : x.run s with ⟨e | a, s'⟩
  · rw [hr] at h
    cases h
  · rw [hr] at h
    exact ⟨a, rfl, h⟩

/-! ### Postconditions -/

/-- `Q` holds of the outcome and the final state of `x` started in `s`. -/
def Post (x : Prog σ ε α) (s : σ) (Q : Except ε α → σ → Prop) : Prop := Q (x.run s).1 (x.run s).2

/-- The rule of sequencing: what holds after the first part has to lead to the postcondition from a
value, and to be enough after an error. -/
theorem Post.bind {x : Prog σ ε α} {f : α → Prog σ ε β} {s : σ} {P : Except ε α → σ → Prop}
    {Q : Except ε β → σ → Prop} (hx : x.Post s P) (hok : ∀ a s', P (.ok a) s' → (f a).Post s' Q)
    (herr : ∀ e s', P (.error e) s' → Q (.error e) s') : (x >>= f).Post s Q := by
  rw [Post] at hx ⊢
  rw [run_bind]
  rcases hr : x.run s with ⟨a | e, s'⟩
  · rw [hr] at hx
    exact herr _ _ hx
  · rw [hr] at hx
    exact hok _ _ hx

/-- The same of a first part that only changes the state. -/
theorem Post.modify_bind {g : σ → σ} {f : PUnit → Prog σ ε β} {s : σ}
    {Q : Except ε β → σ → Prop} (hf : (f ⟨⟩).Post (g s) Q) : (modify g >>= f).Post s Q := hf

/-- What follows an attempt is run with its outcome. -/
theorem Post.attempt_bind {x : Prog σ ε α} {f : Except ε α → Prog σ ε β} {s : σ}
    {P : Except ε α → σ → Prop} {Q : Except ε β → σ → Prop} (hx : x.Post s P)
    (hf : ∀ r s', P r s' → (f r).Post s' Q) : (x.attempt >>= f).Post s Q :=
  hf _ _ hx

/-! ### Steps -/

/-- `x` takes every state to an `R`-later one, whatever its outcome. -/
def Steps (R : σ → σ → Prop) (x : Prog σ ε α) : Prop := ∀ s, R s (x.run s).2

section Preorder

variable {R : σ → σ → Prop} [IsPreorder σ R]

theorem steps_pure (a : α) : Steps R (pure a : Prog σ ε α) := fun s => refl s

theorem steps_fail (e : ε) : Steps R (fail e : Prog σ ε α) := fun s => refl s

theorem steps_gets (f : σ → α) : Steps R (gets f : Prog σ ε α) := fun s => refl s

/-- Sequencing at one state, where what follows may use the value it is given. -/
theorem step_bind {x : Prog σ ε α} {f : α → Prog σ ε β} {s : σ} (hx : R s (x.run s).2)
    (hf : ∀ a, (x.run s).1 = .ok a → R (x.run s).2 ((f a).run (x.run s).2).2) :
    R s ((x >>= f).run s).2 := by
  rw [run_bind]
  rcases hr : x.run s with ⟨a | e, s'⟩
  · rwa [hr] at hx
  · rw [hr] at hx hf
    exact IsTrans.trans _ s' _ hx (hf _ rfl)

/-- A preorder passes through sequencing. -/
theorem Steps.bind {x : Prog σ ε α} {f : α → Prog σ ε β} (hx : Steps R x)
    (hf : ∀ a, Steps R (f a)) : Steps R (x >>= f) :=
  fun s => step_bind (hx s) fun a _ => hf a _

/-- Sequencing seen from an earlier state: the first part fails, or what follows is run from the
state that it leaves. -/
theorem bind_cases {x : Prog σ ε α} {f : α → Prog σ ε β} {s₀ s : σ} (hx : Steps R x)
    (h : R s₀ s) :
    (R s₀ ((x >>= f).run s).2 ∧ ∃ e, ((x >>= f).run s).1 = .error e) ∨
      ∃ a s', x.run s = (.ok a, s') ∧ R s₀ s' ∧ (x >>= f).run s = (f a).run s' := by
  have hlater : R s₀ (x.run s).2 := IsTrans.trans _ s _ h (hx s)
  rcases hr : x.run s with ⟨e | a, s'⟩
  · rw [hr] at hlater
    exact Or.inl ⟨by rwa [run_bind, hr], e, by rw [run_bind, hr]⟩
  · rw [hr] at hlater
    exact Or.inr ⟨a, s', rfl, hlater, by rw [run_bind, hr]⟩

end Preorder

/-- A choice steps as each of its branches. -/
theorem Steps.ite {R : σ → σ → Prop} {p : Prop} [Decidable p] {x y : Prog σ ε α}
    (hx : p → Steps R x) (hy : ¬ p → Steps R y) : Steps R (if p then x else y) := by
  split
  · exact hx ‹_›
  · exact hy ‹_›

/-! ### Failures -/

/-- Where `x` fails, the state it is left in is `R`-later than the one it was started in. -/
def Fails (R : σ → σ → Prop) (x : Prog σ ε α) : Prop :=
  ∀ s e, (x.run s).1 = .error e → R s (x.run s).2

section Fails

variable {R : σ → σ → Prop}

/-- What holds of all runs holds of those that fail. -/
theorem Steps.fails {x : Prog σ ε α} (h : Steps R x) : Fails R x := fun s _ _ => h s

theorem fails_modify (f : σ → σ) : Fails R (modify f : Prog σ ε PUnit) := by
  rintro s e ⟨⟩

theorem Fails.ite {p : Prop} [Decidable p] {x y : Prog σ ε α} (hx : p → Fails R x)
    (hy : ¬ p → Fails R y) : Fails R (if p then x else y) := by
  split
  · exact hx ‹_›
  · exact hy ‹_›

/-- A run fails in its first part or later. -/
theorem Fails.bind [IsPreorder σ R] {x : Prog σ ε α} {f : α → Prog σ ε β} (hx : Steps R x)
    (hf : ∀ a, Fails R (f a)) : Fails R (x >>= f) := by
  intro s e h
  rw [run_bind] at h ⊢
  have hxs : R s (x.run s).2 := hx s
  rcases hr : x.run s with ⟨e' | a, s'⟩
  · rw [hr] at hxs
    exact hxs
  · rw [hr] at h hxs
    exact IsTrans.trans _ s' _ hxs (hf a s' e h)

end Fails

/-! ### Steps under an invariant -/

/-- From every state satisfying `I`, `x` steps by `R`, and a value it returns satisfies `Q`. -/
def Spec (I : σ → Prop) (R : σ → σ → Prop) (x : Prog σ ε α) (Q : α → Prop) : Prop :=
  ∀ s, I s → R s (x.run s).2 ∧ ∀ a, (x.run s).1 = .ok a → Q a

section Spec

variable {I : σ → Prop} {R : σ → σ → Prop} [IsPreorder σ R] {P : α → Prop} {Q : β → Prop}

theorem Spec.pure {a : α} (h : P a) : Spec I R (pure a : Prog σ ε α) P :=
  fun s _ => ⟨refl s, fun _ ha => Except.ok.inj ha ▸ h⟩

theorem Spec.fail (e : ε) : Spec I R (fail e : Prog σ ε α) P :=
  fun s _ => ⟨refl s, fun _ h => nomatch h⟩

/-- Sequencing, for a relation along which the invariant is kept. -/
theorem Spec.bind {x : Prog σ ε α} {f : α → Prog σ ε β} (hI : ∀ s s', I s → R s s' → I s')
    (hx : Spec I R x P) (hf : ∀ a, P a → Spec I R (f a) Q) : Spec I R (x >>= f) Q := by
  intro s hs
  obtain ⟨hR, hP⟩ := hx s hs
  rw [run_bind]
  rcases hr : x.run s with ⟨e | a, s'⟩
  · rw [hr] at hR
    exact ⟨hR, fun _ h => nomatch h⟩
  · rw [hr] at hR hP
    obtain ⟨hR', hQ⟩ := hf a (hP a rfl) s' (hI s s' hs hR)
    exact ⟨IsTrans.trans _ s' _ hR hR', hQ⟩

omit [IsPreorder σ R] in
/-- What holds without the invariant holds under it. -/
theorem Spec.of_steps {x : Prog σ ε α} (h : Steps R x) : Spec I R x fun _ => True :=
  fun s _ => ⟨h s, fun _ _ => trivial⟩

omit [IsPreorder σ R] in
/-- An attempt does not fail, so the value is that of the computation if it had one. -/
theorem Spec.attempt {x : Prog σ ε α} (h : Spec I R x P) :
    Spec I R x.attempt fun r => ∀ a, r = .ok a → P a :=
  fun s hs => ⟨(h s hs).1, fun _ hr a ha => (h s hs).2 a (by cases hr; exact ha)⟩

omit [IsPreorder σ R] in
theorem Spec.ite {p : Prop} [Decidable p] {x y : Prog σ ε α} (hx : p → Spec I R x P)
    (hy : ¬ p → Spec I R y P) : Spec I R (if p then x else y) P := by
  split
  · exact hx ‹_›
  · exact hy ‹_›

end Spec

/-! ### Two runs at once -/

/-- From related states `x` has the same outcome, and it ends in related states. -/
def Respects (R : σ → σ → Prop) (x : Prog σ ε α) : Prop :=
  ∀ s t, R s t → (x.run s).1 = (x.run t).1 ∧ R (x.run s).2 (x.run t).2

section Respects

variable {R : σ → σ → Prop}

theorem respects_pure (a : α) : Respects R (pure a : Prog σ ε α) := fun _ _ h => ⟨rfl, h⟩

theorem respects_fail (e : ε) : Respects R (fail e : Prog σ ε α) := fun _ _ h => ⟨rfl, h⟩

/-- What is read has to be the same. -/
theorem respects_gets {f : σ → α} (hf : ∀ s t, R s t → f s = f t) :
    Respects R (gets f : Prog σ ε α) :=
  fun s t h => ⟨congrArg Except.ok (hf s t h), h⟩

/-- What is changed has to stay related. -/
theorem respects_modify {f : σ → σ} (hf : ∀ s t, R s t → R (f s) (f t)) :
    Respects R (modify f : Prog σ ε PUnit) :=
  fun s t h => ⟨rfl, hf s t h⟩

/-- Relations pass through sequencing, since both runs end in the same way. -/
theorem Respects.bind {x : Prog σ ε α} {f : α → Prog σ ε β} (hx : Respects R x)
    (hf : ∀ a, Respects R (f a)) : Respects R (x >>= f) := by
  intro s t h
  obtain ⟨hout, hrel⟩ := hx s t h
  rw [run_bind, run_bind]
  rcases hs : x.run s with ⟨e | a, s'⟩ <;> rcases ht : x.run t with ⟨e' | a', t'⟩ <;>
    rw [hs, ht] at hout hrel <;> cases hout
  · exact ⟨rfl, hrel⟩
  · exact hf a s' t' hrel

theorem Respects.ite {p : Prop} [Decidable p] {x y : Prog σ ε α} (hx : p → Respects R x)
    (hy : ¬ p → Respects R y) : Respects R (if p then x else y) := by
  split
  · exact hx ‹_›
  · exact hy ‹_›

end Respects

end Prog

end Cheirizo
