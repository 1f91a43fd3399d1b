import Cheirizo.Sesman.Idle

/-!
# Where idle deadlines lie

The idle timeout is configured as an unsigned number of milliseconds and reinterpreted as a signed
one before it is added to the time of the disconnect. From `2 ^ 63` on the deadline is before the
disconnect, and a deadline past the last representable time is not computed at all.

## Main definitions

* `LastsFrom` — a session unbound at a time outlives the cleanups that follow at once

## Main results

* `deadline_not_past_iff` — the deadline is as late as it should be, and the session outlives the
  cleanups that follow at once, exactly if the timeout is a signed number and ends in time
-/

namespace Cheirizo

namespace Sesman

variable {host : Host} {config : SesmanConfig} {calendar : Calendar}

/-! ### The deadline -/

/-- When a timeout that begins at `base` is over. -/
def timeoutEnd (config : SesmanConfig) (base : DateTime) : ℤ :=
  base + config.idleTimeoutMs.toNat * 1000000

/-- A deadline that is not before the end of the timeout, or else the last time there is. -/
def HasDeadline (config : SesmanConfig) (calendar : Calendar) (base : DateTime) : Prop :=
  ∃ deadline, idleDeadlineAfter config calendar base = .ok (some deadline) ∧
    min (timeoutEnd config base) calendar.latest ≤ deadline

/-- Below `2 ^ 63` the reinterpreted timeout is the configured one. -/
theorem toInt_idleTimeoutMs (h : config.idleTimeoutMs.toNat < 2 ^ 63) :
    config.idleTimeoutMs.toInt64.toInt = config.idleTimeoutMs.toNat :=
  BitVec.toInt_eq_toNat_of_lt (x := config.idleTimeoutMs.toBitVec) (by
    change 2 * config.idleTimeoutMs.toNat < 2 ^ 64
    omega)

/-- From there on it is negative. -/
theorem toInt_idleTimeoutMs_neg (h : 2 ^ 63 ≤ config.idleTimeoutMs.toNat) :
    config.idleTimeoutMs.toInt64.toInt < 0 :=
  BitVec.toInt_neg_iff (x := config.idleTimeoutMs.toBitVec).mpr (by
    change 2 ^ 64 ≤ 2 * config.idleTimeoutMs.toNat
    omega)

/-- The deadline that is computed, if the sum is representable. -/
theorem idleDeadlineAfter_eq_some_iff (htimeout : config.idleTimeoutMs ≠ 0) {base deadline : ℤ} :
    idleDeadlineAfter config calendar base = .ok (some deadline) ↔
      config.idleTimeoutMs.toInt64.toInt ≠ -2 ^ 63 ∧
      deadline = base + config.idleTimeoutMs.toInt64.toInt * 1000000 ∧
      calendar.checked deadline = some deadline := by
  rw [idleDeadlineAfter, if_neg htimeout]
  dsimp only
  by_cases hmin : config.idleTimeoutMs.toInt64.toInt = -2 ^ 63
  · rw [if_pos hmin]
    exact ⟨fun h => (by cases h), fun h => absurd hmin h.1⟩
  · rw [if_neg hmin]
    cases hsum : calendar.checked (base + config.idleTimeoutMs.toInt64.toInt * 1000000) with
    | none =>
      refine ⟨fun h => (by cases h), ?_⟩
      rintro ⟨-, rfl, hchecked⟩
      rw [hsum] at hchecked
      cases hchecked
    | some sum =>
      obtain rfl : base + config.idleTimeoutMs.toInt64.toInt * 1000000 = sum :=
        (Calendar.checked_eq_some_iff.mp hsum).1
      constructor
      · intro h
        obtain rfl := Option.some.inj (Except.ok.inj h)
        exact ⟨hmin, rfl, hsum⟩
      · rintro ⟨-, rfl, -⟩
        rfl

theorem hasDeadline_iff (htimeout : config.idleTimeoutMs ≠ 0) {base : DateTime}
    (hbase : calendar.checked base = some base) :
    HasDeadline config calendar base ↔
      config.idleTimeoutMs.toNat < 2 ^ 63 ∧ timeoutEnd config base ≤ calendar.latest := by
  have hrange := (Calendar.checked_eq_some_iff.mp hbase).2
  constructor
  · rintro ⟨deadline, hdeadline, hle⟩
    obtain ⟨-, rfl, hchecked⟩ := (idleDeadlineAfter_eq_some_iff htimeout).mp hdeadline
    have hlatest := (Calendar.checked_eq_some_iff.mp hchecked).2.2
    by_cases hsigned : config.idleTimeoutMs.toNat < 2 ^ 63
    · rw [toInt_idleTimeoutMs hsigned] at hlatest
      exact ⟨hsigned, hlatest⟩
    · have hneg := toInt_idleTimeoutMs_neg (not_lt.mp hsigned)
      rw [timeoutEnd] at hle
      omega
  · rintro ⟨hsigned, hlatest⟩
    have htoInt := toInt_idleTimeoutMs hsigned
    refine ⟨timeoutEnd config base, ?_, min_le_left _ _⟩
    rw [idleDeadlineAfter_eq_some_iff htimeout, htoInt]
    refine ⟨by omega, rfl, Calendar.checked_eq_some_iff.mpr ⟨rfl, ?_, hlatest⟩⟩
    rw [timeoutEnd]
    omega

/-! ### The session after its client has left -/

/-- The session was stored without clients, with the deadline computed from the disconnect. -/
def Unbound (config : SesmanConfig) (calendar : Calendar) (w : World) : Prop :=
  ∃ state now, w.registry = .stored state ∧ state.lastDisconnectedAt = some now ∧
    idleDeadlineAfter config calendar now = .ok state.idleDeadlineAt

/-- Either only looked, or left an unbound session. -/
def Unbinds (config : SesmanConfig) (calendar : Calendar) (w w' : World) : Prop :=
  Looked w w' ∨ Unbound config calendar w'

instance isPreorderUnbinds : IsPreorder World (Unbinds config calendar) where
  refl w := Or.inl (refl w)
  trans w₁ w₂ w₃ h h' := by
    obtain h' | h' := h'
    · obtain h | ⟨state, now, hstored, hrest⟩ := h
      · exact Or.inl (IsTrans.trans _ _ _ h h')
      · exact Or.inr ⟨state, now, h'.registry.trans hstored, hrest⟩
    · exact Or.inr h'

theorem unbinds_of_looked {α : Type} {x : Routine α} (h : Prog.Steps Looked x) :
    Prog.Spec (fun _ => True) (Unbinds config calendar) x fun _ => True :=
  .of_steps fun w => Or.inl (h w)

theorem unbinds_liftFault {α : Type} (r : Except Fault α) :
    Prog.Spec (fun _ => True) (Unbinds config calendar) (liftFault r) fun a => r = .ok a := by
  cases r with
  | ok a => exact .pure rfl
  | error e => exact .fail e

theorem unbinds_markUpdated {state : SessionState} {now : DateTime}
    (hnow : state.lastDisconnectedAt = some now)
    (hdeadline : idleDeadlineAfter config calendar now = .ok state.idleDeadlineAt) :
    Prog.Spec (fun _ => True) (Unbinds config calendar) (markUpdated host state) fun state =>
      state.lastDisconnectedAt = some now ∧
        idleDeadlineAfter config calendar now = .ok state.idleDeadlineAt :=
  .bind (fun _ _ _ _ => trivial) (unbinds_of_looked (looked_observe _)) fun _ _ =>
    .pure ⟨hnow, hdeadline⟩

theorem unbinds_writeState {state : SessionState} {now : DateTime}
    (hnow : state.lastDisconnectedAt = some now)
    (hdeadline : idleDeadlineAfter config calendar now = .ok state.idleDeadlineAt) :
    Prog.Spec (fun _ => True) (Unbinds config calendar) (writeState host state) fun _ => True := by
  refine .bind (fun _ _ _ _ => trivial) (unbinds_of_looked (looked_observe _)) fun _ _ => ?_
  refine .ite (fun _ => .fail _) fun _ => .of_steps fun w => Or.inr ?_
  exact ⟨state, now, rfl, hnow, hdeadline⟩

theorem unbindSingleClient_unbinds (host : Host) (config : SesmanConfig) (w : World) :
    Unbinds config host.calendar w ((unbindSingleClient host config).run w).2 := by
  have htrivial : ∀ w w' : World, True → Unbinds config host.calendar w w' → True :=
    fun _ _ _ _ => trivial
  have hspec : Prog.Spec (fun _ => True) (Unbinds config host.calendar)
      (unbindSingleClient host config) fun _ => True := by
    refine .bind htrivial (unbinds_of_looked looked_acquireLock) fun _ _ => ?_
    refine .bind htrivial (unbinds_of_looked looked_status) fun current _ => ?_
    split
    · exact .pure trivial
    · refine .bind htrivial (unbinds_of_looked (looked_observe _)) fun now _ => ?_
      refine .bind htrivial (unbinds_liftFault _) fun deadline hdeadline => ?_
      refine .bind htrivial (unbinds_markUpdated rfl hdeadline) fun state hstate => ?_
      exact .bind htrivial (unbinds_writeState hstate.1 hstate.2) fun _ _ =>
        unbinds_of_looked looked_status
  exact (hspec w trivial).1

/-- A session whose client was recorded to have left at `base` outlives the cleanups that come
before its timeout is over. -/
def LastsFrom (config : SesmanConfig) (calendar : Calendar) (base : DateTime) : Prop :=
  ∀ (host : Host) (w : World) (state : SessionState) (gap : List SesmanOp),
    let w' := ((unbindSingleClient host config).run w).2
    host.calendar = calendar → w'.log ≠ w.log → w'.registry = .stored state →
    state.lastDisconnectedAt = some base →
    (∀ op ∈ gap, op = .cleanupIdle) →
    (∀ k, w'.tick ≤ k → k < ((sesmanMachine host config).exec w' gap).tick →
      (host k).utcNow < min (timeoutEnd config base) calendar.latest) →
    Looked w' ((sesmanMachine host config).exec w' gap)

theorem lastsFrom_of_hasDeadline {base : DateTime} (h : HasDeadline config calendar base) :
    LastsFrom config calendar base := by
  rintro host w state gap w' rfl hlog hstored hbase hgap hclock
  obtain ⟨deadline, hdeadline, hle⟩ := h
  obtain hlooked | ⟨state', now, hstored', hnow, hcomputed⟩ :=
    unbindSingleClient_unbinds host config w
  · exact absurd hlooked.log hlog
  obtain rfl : state' = state := by
    have hsame := hstored'.symm.trans hstored
    injection hsame
  obtain rfl : now = base := Option.some.inj (hnow.symm.trans hbase)
  have hstate : state'.idleDeadlineAt = some deadline :=
    Except.ok.inj (hcomputed.symm.trans hdeadline)
  refine looked_cleanups hgap hstored fun deadline' _ heffective k hk hk' => ?_
  rw [effectiveIdleDeadline, hstate] at heffective
  obtain rfl : deadline = deadline' := Option.some.inj (Except.ok.inj heffective)
  exact (hclock k hk hk').trans_le hle

/-- **Idle deadlines.** The deadline is computed and not before the end of the timeout, or the last
time there is, and the cleanups that follow at once leave the session, exactly if the timeout is
below `2 ^ 63` milliseconds and its end is representable. -/
theorem deadline_not_past_iff (config : SesmanConfig) (htimeout : config.idleTimeoutMs ≠ 0)
    (calendar : Calendar) (base : DateTime) (hbase : calendar.checked base = some base) :
    (HasDeadline config calendar base ∧ LastsFrom config calendar base) ↔
      config.idleTimeoutMs.toNat < 2 ^ 63 ∧ timeoutEnd config base ≤ calendar.latest := by
  rw [← hasDeadline_iff htimeout hbase]
  exact ⟨And.left, fun h => ⟨h, lastsFrom_of_hasDeadline h⟩⟩

/-- A minute. -/
theorem deadline_not_past_minute :
    HasDeadline startingConfig .chrono 0 ∧ LastsFrom startingConfig .chrono 0 :=
  (deadline_not_past_iff startingConfig (by decide) .chrono 0 (by decide)).mpr (by decide)

/-- The largest timeout there is. -/
def foreverConfig : SesmanConfig := { startingConfig with idleTimeoutMs := 0xFFFFFFFFFFFFFFFF }

/-- A host whose clock stands still, and on which the session ends when it is signalled. -/
def stillHost : Host where
  snapshot t := { startingHost t with
    killProbe := fun target => (target = 4242 || target = -4242) && t < 116 }
  calendar := .chrono

/-- The deadline is a millisecond before the disconnect, and the first cleanup stops the session. -/
theorem deadline_past_forever :
    foreverConfig.idleTimeoutMs ≠ 0 ∧
      idleDeadlineAfter foreverConfig .chrono 0 = .ok (some (-1000000)) ∧
      ¬ (HasDeadline foreverConfig .chrono 0 ∧ LastsFrom foreverConfig .chrono 0) ∧
      (∀ t, (stillHost t).utcNow = 0) ∧
      Action.signal 114 (-4242) .sigterm ∈ ((sesmanMachine stillHost foreverConfig).exec
        (.fresh 0 0) [.ensure forNobody, .bindSingleClient, .unbindSingleClient,
          .cleanupIdle]).log ∧
      ((sesmanMachine stillHost foreverConfig).exec (.fresh 0 0)
        [.ensure forNobody, .bindSingleClient, .unbindSingleClient, .cleanupIdle]).registry =
        .missing := by
  refine ⟨by decide, by decide, ?_, fun _ => rfl, by decide +kernel, by decide +kernel⟩
  rintro ⟨hdeadline, -⟩
  have hsigned := ((hasDeadline_iff (by decide) (by decide)).mp hdeadline).1
  exact absurd hsigned (by decide)

end Sesman

end Cheirizo
