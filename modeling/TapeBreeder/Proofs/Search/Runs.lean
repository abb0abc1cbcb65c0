import TapeBreeder.Proofs.Search.Steps

/-!
# Runs and their rounds

A run takes steps until one of them ends the search, and each step that does not end it counts one
generation. So a run within some rounds comes to its end exactly if the search is ended in a
generation below that number, and what it comes to does not depend on the rounds that are left.

* `State.Reachable.run_eq` — a run from the beginning goes on as one from each state on its way.
* `Engine.run_eq_some_iff` — where a run ends, and with what.
* `Engine.run_mono` — a run that has ended does not change with more rounds.
* `Engine.exists_run_of_winner` — a run that ends in its first round.
-/

namespace TapeBreeder

variable {σ : Type} [RandomSource σ] {clock : Clock} {monitor : Monitor} {e : Engine σ}

namespace State

variable {s t : State σ} {result : Except SearchError Report} {rounds : Nat}

theorem run_of_next (h : s.step clock monitor = .next t) (rounds : Nat) :
    s.run clock monitor (rounds + 1) = t.run clock monitor rounds := by
  rw [run, h]

/-- A step that ends makes the run of what has been collected, which is in reverse order. -/
theorem run_of_finished (h : s.step clock monitor = .finished t result) (rounds : Nat) :
    s.run clock monitor (rounds + 1) =
      some ⟨t.engine, result, t.snapshots.reverse, t.events.reverse⟩ := by
  rw [run, h]

/-- Each generation takes one round, so a run can be begun again from any state that it comes to. -/
theorem Reachable.run_eq (hs : Reachable clock monitor e s) (rounds : Nat) :
    e.run clock monitor (s.engine.generation + rounds) = s.run clock monitor rounds := by
  induction hs generalizing rounds with
  | start =>
    rw [generation_start, Nat.zero_add]
    rfl
  | next _ hstep ih =>
    -- The step takes the first of the rounds that the state before it has left.
    rw [generation_next hstep, Nat.add_assoc, Nat.add_comm 1, ih, run_of_next hstep]

/-- A run that ends has come to a step that ends it, with rounds to spare. -/
theorem exists_finished_of_run {r : Engine.Run σ} (hs : Reachable clock monitor e s)
    (h : s.run clock monitor rounds = some r) :
    ∃ last t result, Reachable clock monitor e last ∧
      last.engine.generation < s.engine.generation + rounds ∧
      last.step clock monitor = .finished t result ∧
      r = ⟨t.engine, result, t.snapshots.reverse, t.events.reverse⟩ := by
  induction rounds generalizing s with
  | zero =>
    rw [run] at h
    cases h
  | succ rounds ih =>
    -- The rounds are used up one by one, as the generation goes up.
    cases hstep : s.step clock monitor with
    | next t =>
      rw [run_of_next hstep] at h
      rcases ih (hs.next hstep) h with ⟨last, u, result, hlast, hlt, hend⟩
      rw [generation_next hstep] at hlt
      exact ⟨last, u, result, hlast, by omega, hend⟩
    | finished t result =>
      rw [run_of_finished hstep] at h
      exact ⟨s, t, result, hs, by omega, hstep, (Option.some.inj h).symm⟩

end State

namespace Engine

variable {rounds more : Nat} {r : Run σ}

/-- All that is known of runs is known of reachable states and of the step that ends the search.
Facts about runs are taken from here, and not by another induction on rounds. -/
theorem run_eq_some_iff : e.run clock monitor rounds = some r ↔
    ∃ s t result, State.Reachable clock monitor e s ∧ s.engine.generation < rounds ∧
      s.step clock monitor = .finished t result ∧
      r = ⟨t.engine, result, t.snapshots.reverse, t.events.reverse⟩ := by
  constructor
  · intro h
    rcases State.exists_finished_of_run .start h with ⟨s, t, result, hs, hlt, hend⟩
    rw [State.generation_start, Nat.zero_add] at hlt
    exact ⟨s, t, result, hs, hlt, hend⟩
  · rintro ⟨s, t, result, hs, hlt, hstep, rfl⟩
    rcases Nat.exists_eq_add_of_lt hlt with ⟨left, rfl⟩
    rw [Nat.add_assoc, hs.run_eq, State.run_of_finished hstep]

/-- The number of rounds is only a bound: a run that ends is the same with more. -/
theorem run_mono (h : e.run clock monitor rounds = some r) (hle : rounds ≤ more) :
    e.run clock monitor more = some r := by
  rcases run_eq_some_iff.mp h with ⟨s, t, result, hs, hlt, hend⟩
  exact run_eq_some_iff.mpr ⟨s, t, result, hs, Nat.lt_of_lt_of_le hlt hle, hend⟩

/-- A search whose first population has a winner reports it. -/
theorem exists_run_of_winner {log : LogFilter} {winner : Program} (hclear : e.cancelled = false)
    (hlimit : (State.start (.passive log) e).engine.reachedLimit? = none)
    (hwinner : ((State.start (.passive log) e).evaluate clock).winner = some winner) :
    ∃ r, e.run clock (.passive log) 1 = some r ∧
      r.result = .ok ((State.start (.passive log) e).engine.report clock winner) := by
  have hflag : (State.start (.passive log) e).engine.cancelled = false :=
    (State.cancelled_start (Monitor.cancels_passive log) e).trans hclear
  have hfinished : ∃ t, (State.start (.passive log) e).step clock (.passive log) =
      .finished t (.ok ((State.start (.passive log) e).engine.report clock winner)) :=
    State.exists_finished hflag hlimit hwinner
  rcases hfinished with ⟨t, hfinished⟩
  exact ⟨_, State.run_of_finished hfinished 0, rfl⟩

end Engine

end TapeBreeder
