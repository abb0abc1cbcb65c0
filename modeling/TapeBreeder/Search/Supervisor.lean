import TapeBreeder.Search.Engine

/-!
# Supervised searches

A supervisor begins a search again, from other draws, when it has reached its generation limit.
The seed of each attempt is drawn from a source of its own, so a seeded configuration determines
all attempts. Attempts are numbered from one; a limit of zero attempts means no limit.

* `Supervisor.run` — attempts until one succeeds, fails otherwise, or there are no more.
-/

namespace TapeBreeder

/-- What a supervisor needs. -/
structure Supervisor where
  config : RunConfig
  /-- The number of attempts; zero for as many as it takes. -/
  maxAttempts : Nat
  /-- Whether the searches have been cancelled beforehand. -/
  cancelled : Bool

namespace Supervisor

/-- What comes of supervised searches. -/
structure Run where
  result : Except SearchError SupervisedReport
  events : List Event

/-- The events that are kept. -/
def kept (log : LogFilter) (events : List Event) : List Event :=
  events.filter (log.admits ·.level)

/-- Go on after `attempts` attempts, with the log records so far in order. -/
def attempt (σ : Type) [SeededSource σ] (clock : Clock) (log : LogFilter) (s : Supervisor)
    (inputs targets : List String) (engineRounds : Nat) :
    (rounds : Nat) → (seeds : σ) → (attempts : Nat) → List Event → Option Run
  | 0, _, _, _ => none
  | rounds + 1, seeds, attempts, events =>
    if s.maxAttempts ≠ 0 ∧ s.maxAttempts ≤ attempts then
      some ⟨.error (.retriesExhausted attempts), events ++ kept log [.gaveUp attempts]⟩
    else if s.cancelled then
      some ⟨.error .cancelled, events⟩
    else
      let (seed, seeds) := RandomSource.seed.run seeds
      let config := { s.config with randomSeed := some seed }
      match (Engine.create seed config inputs targets : Except SearchError (Engine σ)) with
      | .error error => some ⟨.error error, events⟩
      | .ok engine =>
        match engine.run clock (.passive log) engineRounds with
        | none => none
        | some run =>
          let attempts := attempts + 1
          let events := events ++ run.events
          match run.result with
          | .ok report =>
            some ⟨.ok ⟨attempts, report⟩,
              events ++ kept log [.succeeded attempts, .success report]⟩
          | .error (.exhausted generations) =>
            s.attempt σ clock log inputs targets engineRounds rounds seeds attempts
              (events ++ kept log [.attemptExhausted attempts generations])
          | .error error => some ⟨.error error, events⟩

/-- Supervised searches, of at most `rounds` attempts with at most `rounds` rounds each. A
configuration without a seed takes `entropy` for one. -/
def run (σ : Type) [SeededSource σ] (clock : Clock) (log : LogFilter) (rounds : Nat)
    (entropy : UInt64) (s : Supervisor) (inputs targets : List String) : Option Run :=
  s.attempt σ clock log inputs targets rounds rounds
    (SeededSource.ofSeed (s.config.randomSeed.getD entropy)) 0 []

end Supervisor

end TapeBreeder
