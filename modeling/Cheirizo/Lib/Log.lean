import Cheirizo.Lib.Machine

/-!
# Logs in which every entry is supported

What a run emits is a log. That one thing happens only after another is a property of logs: an entry
is supported by the entries before it. Such a property is proved along a run together with what the
state knows about the log so far.

## Main definitions

* `Supported` — every entry has its support in front of it

## Main results

* `supported_append` — a log that goes on
* `Machine.exec_log` — what a step keeps true of state and log is true after every run
* `Machine.forall_trace` — what is true of all that a step emits is true of all that a run emits
-/

namespace Cheirizo

variable {α : Type*} {S : List α → α → Prop} {log more : List α} {a : α}

/-- Every entry is supported by those before it. -/
def Supported (S : List α → α → Prop) (log : List α) : Prop :=
  ∀ before a after, log = before ++ a :: after → S before a

theorem supported_nil : Supported S [] := fun _ _ _ h => absurd h (by simp)

theorem supported_cons :
    Supported S (a :: log) ↔ S [] a ∧ Supported (fun before => S (a :: before)) log := by
  constructor
  · intro h
    exact ⟨h [] a log rfl, fun before b after hlog => h (a :: before) b after (by rw [hlog]; rfl)⟩
  · rintro ⟨hfirst, hrest⟩ before b after hlog
    cases before with
    | nil =>
      obtain ⟨rfl, -⟩ := List.cons.inj hlog
      exact hfirst
    | cons c before =>
      obtain ⟨rfl, htail⟩ := List.cons.inj hlog
      exact hrest before b after htail

/-- **A log that goes on.** What is added may be supported by all that was there. -/
theorem supported_append :
    Supported S (log ++ more) ↔
      Supported S log ∧ Supported (fun before => S (log ++ before)) more := by
  induction log generalizing S with
  | nil => exact ⟨fun h => ⟨supported_nil, h⟩, fun h => h.2⟩
  | cons a log ih => rw [List.cons_append, supported_cons, supported_cons, ih, and_assoc]; rfl

theorem supported_singleton : Supported S [a] ↔ S [] a := by
  rw [supported_cons]
  exact and_iff_left supported_nil

/-- **The rule for logs.** What every step that meets the condition keeps true of the state and of
the log is true after every run along which the condition is met. -/
theorem Machine.exec_log_along {σ ι ο : Type*} {m : Machine σ ι ο} {I : σ → List ο → Prop}
    {C : σ → ι → Prop}
    (hstep : ∀ s i log, I s log → C s i → I (m.step s i).1 (log ++ (m.step s i).2)) {s : σ}
    {log : List ο} (h : I s log) {is : List ι} (hC : m.Along C s is) :
    I (m.exec s is) (log ++ m.trace s is) := by
  induction is generalizing s log with
  | nil =>
    rw [show log ++ m.trace s [] = log from List.append_nil log]
    exact h
  | cons i is ih =>
    rw [Machine.exec_cons, Machine.trace_cons, ← List.append_assoc]
    exact ih (hstep s i log h hC.1) hC.2

/-- And what every step keeps true is true after every run. -/
theorem Machine.exec_log {σ ι ο : Type*} {m : Machine σ ι ο} {I : σ → List ο → Prop}
    (hstep : ∀ s i log, I s log → I (m.step s i).1 (log ++ (m.step s i).2)) {s : σ} {log : List ο}
    (h : I s log) (is : List ι) : I (m.exec s is) (log ++ m.trace s is) :=
  exec_log_along (C := fun _ _ => True) (fun s i log h _ => hstep s i log h) h along_true

/-- What is true of all that a step emits is true of all that a run emits. -/
theorem Machine.forall_trace {σ ι ο : Type*} {m : Machine σ ι ο} {I : σ → Prop} {P : ο → Prop}
    {C : σ → ι → Prop}
    (hstep : ∀ s i, I s → C s i → I (m.step s i).1 ∧ ∀ o ∈ (m.step s i).2, P o) {s : σ} (h : I s)
    {is : List ι} (hC : m.Along C s is) : I (m.exec s is) ∧ ∀ o ∈ m.trace s is, P o := by
  have hempty : I s ∧ ∀ o ∈ ([] : List ο), P o := ⟨h, List.forall_mem_nil P⟩
  refine exec_log_along (I := fun s log => I s ∧ ∀ o ∈ log, P o) (fun s i log hs hi => ?_) hempty hC
  obtain ⟨hnext, hout⟩ := hstep s i hs.1 hi
  exact ⟨hnext, List.forall_mem_append.mpr ⟨hs.2, hout⟩⟩

end Cheirizo
