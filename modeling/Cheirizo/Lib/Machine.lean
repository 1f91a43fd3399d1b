import Mathlib.Data.List.Basic

/-!
# Deterministic machines and their runs

A machine takes a state and an input to a next state and a list of emitted outputs. Everything
here is about *runs*: the state after a list of inputs, the outputs emitted on the way, and the
two rules that turn a fact about one step into a fact about every run.

## Conditions on steps

`Along C s is` says that `C` holds of every step of the run, each time evaluated in the state the
step is taken from. It is the shape of every guarded result downstream: a property holds of all
runs *along which* a condition on the steps holds. `Always P s is` says that `P` holds of every
state the run passes through, both ends included.

## Main results

* `Machine.exec_invariant` — a step invariant is a run invariant
* `Machine.Along.of_invariant` — an invariant turns one step condition into another
* `Machine.along_congr_of_invariant` — an invariant makes two step conditions the same
* `Machine.trace_eq_of_simulation` — related states that answer alike stay indistinguishable
-/

namespace Cheirizo

/-- A deterministic machine with states `σ`, inputs `ι` and outputs `ο`. -/
structure Machine (σ ι ο : Type*) where
  /-- One step: the next state and what is emitted. -/
  step : σ → ι → σ × List ο

namespace Machine

variable {σ τ ι ο ο' : Type*} (m : Machine σ ι ο)

/-! ### Runs -/

/-- The state after a list of inputs. -/
def exec : σ → List ι → σ
  | s, [] => s
  | s, i :: is => exec (m.step s i).1 is

/-- The outputs emitted along a list of inputs, in order. -/
def trace : σ → List ι → List ο
  | _, [] => []
  | s, i :: is => (m.step s i).2 ++ trace (m.step s i).1 is

/-- `C` holds of every step of the run, in the state the step is taken from. -/
def Along (C : σ → ι → Prop) : σ → List ι → Prop
  | _, [] => True
  | s, i :: is => C s i ∧ Along C (m.step s i).1 is

/-- `P` holds of every state the run passes through. -/
def Always (P : σ → Prop) : σ → List ι → Prop
  | s, [] => P s
  | s, i :: is => P s ∧ Always P (m.step s i).1 is

@[simp] theorem exec_nil (s : σ) : m.exec s [] = s := rfl

@[simp] theorem exec_cons (s : σ) (i : ι) (is : List ι) :
    m.exec s (i :: is) = m.exec (m.step s i).1 is := rfl

@[simp] theorem trace_cons (s : σ) (i : ι) (is : List ι) :
    m.trace s (i :: is) = (m.step s i).2 ++ m.trace (m.step s i).1 is := rfl

@[simp] theorem along_cons {C : σ → ι → Prop} {s : σ} {i : ι} {is : List ι} :
    m.Along C s (i :: is) ↔ C s i ∧ m.Along C (m.step s i).1 is := Iff.rfl

@[simp] theorem always_cons {P : σ → Prop} {s : σ} {i : ι} {is : List ι} :
    m.Always P s (i :: is) ↔ P s ∧ m.Always P (m.step s i).1 is := Iff.rfl

/-- A property of all states is one of the first. -/
theorem Always.head {m : Machine σ ι ο} {P : σ → Prop} {s : σ} {is : List ι}
    (h : m.Always P s is) : P s := by
  cases is with
  | nil => exact h
  | cons i is => exact h.1

/-- And one of the last. -/
theorem Always.last {m : Machine σ ι ο} {P : σ → Prop} {s : σ} {is : List ι}
    (h : m.Always P s is) : P (m.exec s is) := by
  induction is generalizing s with
  | nil => exact h
  | cons i is ih => exact ih h.2

theorem Always.mono {m : Machine σ ι ο} {P Q : σ → Prop} {s : σ} {is : List ι}
    (h : m.Always P s is) (hPQ : ∀ s, P s → Q s) : m.Always Q s is := by
  induction is generalizing s with
  | nil => exact hPQ s h
  | cons i is ih => exact ⟨hPQ s h.1, ih h.2⟩

theorem exec_append (s : σ) (is js : List ι) :
    m.exec s (is ++ js) = m.exec (m.exec s is) js := by
  induction is generalizing s with
  | nil => rfl
  | cons i is ih => exact ih _

theorem trace_append (s : σ) (is js : List ι) :
    m.trace s (is ++ js) = m.trace s is ++ m.trace (m.exec s is) js := by
  induction is generalizing s with
  | nil => rfl
  | cons i is ih => rw [List.cons_append, trace_cons, trace_cons, exec_cons, ih, List.append_assoc]

theorem along_append {C : σ → ι → Prop} (s : σ) (is js : List ι) :
    m.Along C s (is ++ js) ↔ m.Along C s is ∧ m.Along C (m.exec s is) js := by
  induction is generalizing s with
  | nil => exact ⟨fun h => ⟨trivial, h⟩, fun h => h.2⟩
  | cons i is ih => rw [List.cons_append, along_cons, along_cons, exec_cons, ih, and_assoc]

instance decidableAlong (C : σ → ι → Prop) [∀ s i, Decidable (C s i)] :
    ∀ s is, Decidable (m.Along C s is)
  | _, [] => isTrue trivial
  | s, i :: is => @instDecidableAnd _ _ _ (decidableAlong C (m.step s i).1 is)

/-! ### Invariants -/

variable {m} {B C D : σ → ι → Prop} {I P : σ → Prop} {s : σ} {is : List ι}

/-- **The invariant rule.** What holds initially and is kept by every step that meets the
condition holds after every run along which the condition does. -/
theorem exec_invariant (hstep : ∀ s i, I s → C s i → I (m.step s i).1) (hs : I s)
    (h : m.Along C s is) : I (m.exec s is) := by
  induction is generalizing s with
  | nil => exact hs
  | cons i is ih => exact ih (hstep s i hs h.1) h.2

/-- An invariant under which `C` gives `D` turns a run along `C` into a run along `D`. -/
theorem Along.of_invariant (hstep : ∀ s i, I s → C s i → I (m.step s i).1)
    (himp : ∀ s i, I s → C s i → D s i) (hs : I s) (h : m.Along C s is) : m.Along D s is := by
  induction is generalizing s with
  | nil => trivial
  | cons i is ih => exact ⟨himp s i hs h.1, ih (hstep s i hs h.1) h.2⟩

/-- Two step conditions that an invariant makes equivalent are met along the same runs, if the
second one is enough to keep the invariant. -/
theorem along_congr_of_invariant (hiff : ∀ s i, I s → B s i → (C s i ↔ D s i))
    (hstep : ∀ s i, I s → B s i → D s i → I (m.step s i).1) (hs : I s) (hB : m.Along B s is) :
    m.Along C s is ↔ m.Along D s is := by
  induction is generalizing s with
  | nil => exact Iff.rfl
  | cons i is ih =>
    obtain ⟨hb, hB⟩ := hB
    rw [along_cons, along_cons, hiff s i hs hb]
    exact and_congr_right fun hd => ih (hstep s i hs hb hd) hB

/-- A condition on the inputs alone is met along a run if every input meets it. -/
theorem along_of_forall {A : ι → Prop} (h : ∀ i ∈ is, A i) : m.Along (fun _ => A) s is := by
  induction is generalizing s with
  | nil => trivial
  | cons i is ih =>
    exact ⟨h i (List.mem_cons_self ..), ih fun j hj => h j (List.mem_cons_of_mem _ hj)⟩

/-- With the trivial condition every run qualifies. -/
theorem along_true : m.Along (fun _ _ => True) s is :=
  along_of_forall fun _ _ => trivial

/-- What an invariant gives holds in every state of a run along which the invariant is kept. -/
theorem always_of_invariant (hstep : ∀ s i, I s → C s i → I (m.step s i).1)
    (hgood : ∀ s, I s → P s) (hs : I s) (h : m.Along C s is) : m.Always P s is := by
  induction is generalizing s with
  | nil => exact hgood s hs
  | cons i is ih => exact ⟨hgood s hs, ih (hstep s i hs h.1) h.2⟩

/-- A state property that every qualifying step establishes, and every other step destroys, holds
throughout a run exactly when all of its steps qualify. -/
theorem always_iff_along (hstep : ∀ s i, I s → C s i → I (m.step s i).1)
    (hgood : ∀ s, I s → P s) (hbad : ∀ s i, I s → ¬ C s i → ¬ P (m.step s i).1)
    (hs : I s) : m.Always P s is ↔ m.Along C s is := by
  induction is generalizing s with
  | nil => exact ⟨fun _ => trivial, fun _ => hgood s hs⟩
  | cons i is ih =>
    constructor
    · rintro ⟨-, h⟩
      by_cases hc : C s i
      · exact ⟨hc, (ih (hstep s i hs hc)).mp h⟩
      · exact absurd h.head (hbad s i hs hc)
    · rintro ⟨hc, h⟩
      exact ⟨hgood s hs, (ih (hstep s i hs hc)).mpr h⟩

/-! ### Two runs at once -/

/-- Where a part of the state goes its own way, conditions on it are conditions on the run of its
own machine. -/
theorem along_map {m' : Machine τ ι ο'} {f : σ → τ} {C : τ → ι → Prop}
    (hstep : ∀ s i, f (m.step s i).1 = (m'.step (f s) i).1) (s : σ) (is : List ι) :
    m.Along (fun s => C (f s)) s is ↔ m'.Along C (f s) is := by
  induction is generalizing s with
  | nil => exact Iff.rfl
  | cons i is ih => rw [along_cons, along_cons, ih, hstep]

/-- **The simulation rule.** If related states answer every admissible input with the same
outputs and stay related, then no admissible run tells them apart. -/
theorem trace_eq_of_simulation {m' : Machine τ ι ο} {R : σ → τ → Prop} {A : ι → Prop}
    (hstep : ∀ s t i, R s t → A i →
      (m.step s i).2 = (m'.step t i).2 ∧ R (m.step s i).1 (m'.step t i).1)
    {s : σ} {t : τ} (hR : R s t) (hA : ∀ i ∈ is, A i) : m.trace s is = m'.trace t is := by
  induction is generalizing s t with
  | nil => rfl
  | cons i is ih =>
    obtain ⟨hout, hnext⟩ := hstep s t i hR (hA i (List.mem_cons_self ..))
    rw [trace_cons, trace_cons, hout, ih hnext fun j hj => hA j (List.mem_cons_of_mem _ hj)]

end Machine

end Cheirizo
