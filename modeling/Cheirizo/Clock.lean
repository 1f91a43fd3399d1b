import Mathlib.Tactic.Ring

/-!
# Clocks

The program reads two clocks: a monotonic one, used for deadlines inside a process, and the wall
clock, whose readings are written to the session registry. Both count nanoseconds.

Times of the wall clock are kept by a library that is not part of the program. What matters of it
here is that it represents the times of some range, and refuses arithmetic that leaves it. The range
is a parameter, a `Calendar`.
-/

namespace Cheirizo

/-- Nanoseconds from an arbitrary origin, as read from the monotonic clock. -/
abbrev Instant := ℕ

/-- Nanoseconds from the Unix epoch, as read from the wall clock. -/
abbrev DateTime := ℤ

/-- A duration given in milliseconds. -/
def millis (n : ℕ) : ℕ := n * 1000000

/-- A duration given in seconds. -/
def seconds (n : ℕ) : ℕ := n * 1000000000

/-- The wall-clock times that are representable, from the first to the last. Arithmetic is exact
within them and refused outside. -/
structure Calendar where
  earliest : ℤ
  latest : ℤ
  deriving DecidableEq, Repr

/-- A wall-clock time, if it is representable. -/
def Calendar.checked (calendar : Calendar) (t : ℤ) : Option DateTime :=
  if calendar.earliest ≤ t ∧ t ≤ calendar.latest then some t else none

theorem Calendar.checked_eq_some_iff {calendar : Calendar} {t d : ℤ} :
    calendar.checked t = some d ↔ t = d ∧ calendar.earliest ≤ d ∧ d ≤ calendar.latest := by
  rw [checked, Option.ite_none_right_eq_some, Option.some.injEq]
  constructor
  · rintro ⟨hrange, rfl⟩
    exact ⟨rfl, hrange⟩
  · rintro ⟨rfl, hrange⟩
    exact ⟨hrange, rfl⟩

/-- The calendar of the `chrono` crate, from the first instant of the year `-262143` to the last of
the year `262142`. -/
def Calendar.chrono : Calendar where
  earliest := -8334601228800 * 1000000000
  latest := 8210266876800 * 1000000000 - 1

/-- Milliseconds since the epoch, rounded down. -/
def DateTime.timestampMillis (t : DateTime) : ℤ := t / 1000000

end Cheirizo
