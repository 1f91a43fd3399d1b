import Cheirizo.Lib.Machine

/-!
# Objects and their lives

Objects are created, used and destroyed. What was done to them is read off a log: an object is used
only while it lives, and destroyed once. A program keeps to this if its state always names the
objects that are alive, and then nothing leaks either: what the state does not name is gone.

## Main definitions

* `Access` — what is done to an object
* `run` — the objects that are alive after a log, if the log is a proper one

## Main results

* `run_trace` — a machine each of whose steps keeps its state in line with the log does so in
  every run
-/

namespace Cheirizo

namespace Objects

/-- What a program does to an object. -/
inductive Access (α : Type*) where
  | create (a : α)
  | use (a : α)
  | destroy (a : α)
  deriving DecidableEq, Repr

variable {α : Type*} [DecidableEq α]

/-- The living objects after an access, which must be to a living object or create a new one. -/
def access (live : List α) : Access α → Option (List α)
  | .create a => if a ∈ live then none else some (a :: live)
  | .use a => if a ∈ live then some live else none
  | .destroy a => if a ∈ live then some (live.erase a) else none

/-- The objects that are there in the end, if every access was to one that was there. -/
def run : List α → List (Access α) → Option (List α)
  | live, [] => some live
  | live, x :: log => (access live x).bind fun next => run next log

@[simp] theorem run_nil (live : List α) : run live [] = some live := rfl

theorem run_cons {live next : List α} {x : Access α} (h : access live x = some next)
    (log : List (Access α)) : run live (x :: log) = run next log := by
  rw [run, h]
  rfl

theorem run_append (live : List α) (log more : List (Access α)) :
    run live (log ++ more) = (run live log).bind fun next => run next more := by
  induction log generalizing live with
  | nil => rfl
  | cons x log ih =>
    rw [List.cons_append, run, run]
    cases access live x with
    | none => rfl
    | some next => exact ih next

theorem access_create {live : List α} {a : α} (h : a ∉ live) :
    access live (.create a) = some (a :: live) :=
  if_neg h

theorem access_use {live : List α} {a : α} (h : a ∈ live) : access live (.use a) = some live :=
  if_pos h

theorem access_destroy {live : List α} {a : α} (h : a ∈ live) :
    access live (.destroy a) = some (live.erase a) :=
  if_pos h

/-- Uses of a living object change nothing. -/
theorem run_use {live : List α} {a : α} (h : a ∈ live) {log : List (Access α)}
    (hlog : ∀ x ∈ log, x = .use a) : run live log = some live := by
  induction log with
  | nil => rfl
  | cons x log ih =>
    rw [hlog x List.mem_cons_self, run_cons (access_use h)]
    exact ih fun y hy => hlog y (List.mem_cons_of_mem _ hy)

/-- Living objects are destroyed one after the other, whatever else lives. -/
theorem run_destroy (front gone rest : List α) (h : ∀ a ∈ gone, a ∉ front) :
    run (front ++ (gone ++ rest)) (gone.map .destroy) = some (front ++ rest) := by
  induction gone with
  | nil => rfl
  | cons a gone ih =>
    have ha := h a List.mem_cons_self
    have hin : a ∈ front ++ (a :: gone ++ rest) := List.mem_append_right _ List.mem_cons_self
    have herase : (front ++ (a :: gone ++ rest)).erase a = front ++ (gone ++ rest) := by
      rw [List.erase_append_right _ ha, List.cons_append, List.erase_cons_head]
    rw [List.map_cons, run_cons (access_destroy hin), herase]
    exact ih fun b hb => h b (List.mem_cons_of_mem _ hb)

/-- **The log of a run.** If the state names the living objects, and each step leaves it so by what
the step does to them, then it does after every run. -/
theorem run_trace {σ ι ο : Type*} {m : Machine σ ι ο} {I : σ → Prop} {C : σ → ι → Prop}
    (live : σ → List α) (log : ο → List (Access α))
    (hkeep : ∀ s i, I s → C s i → I (m.step s i).1)
    (hstep : ∀ s i, I s → C s i →
      run (live s) ((m.step s i).2.flatMap log) = some (live (m.step s i).1))
    {s : σ} {is : List ι} (hs : I s) (h : m.Along C s is) :
    run (live s) ((m.trace s is).flatMap log) = some (live (m.exec s is)) := by
  induction is generalizing s with
  | nil => rfl
  | cons i is ih =>
    rw [Machine.trace_cons, List.flatMap_append, run_append, hstep s i hs h.1]
    exact ih (hkeep s i hs h.1) h.2

end Objects

end Cheirizo
