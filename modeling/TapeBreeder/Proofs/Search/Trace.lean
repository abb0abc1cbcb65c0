import TapeBreeder.Proofs.Random.Script
import TapeBreeder.Proofs.Search.Runs

/-!
# The snapshots of a search

A search takes one snapshot when it begins, one for every generation that it goes on from, and one
at its end. Each is stamped with its phase and with the generation that the search has come to.

* `State.Reachable.stamps` — what has been stamped before a generation: the beginning, and each
  earlier generation once.
* `State.Reachable.generation_le` — the generation never passes the limit.
* `State.isSome_run` — with a limit, a search ends within as many rounds as are left, and one.
* `State.evaluations_le` — it scores no more populations than there are generations left.
* `run_trace` — the snapshots of a whole run, and what they say about its result.
-/

namespace TapeBreeder

variable {σ : Type}

/-! ## Stamps -/

/-- The phase and the generation of a snapshot. -/
def Progress.stamp (p : Progress) : Phase × Nat :=
  (p.phase, p.generation)

/-- The stamps of a search before a generation, in order. -/
def stampsBefore (generation : Nat) : List (Phase × Nat) :=
  (.initializing, 0) :: (List.range generation).map (Phase.evaluating, ·)

theorem stampsBefore_succ (generation : Nat) :
    stampsBefore (generation + 1) = stampsBefore generation ++ [(.evaluating, generation)] := by
  rw [stampsBefore, List.range_succ, List.map_append]
  rfl

namespace Engine

/-- A limit is reached from its generation on. -/
theorem reachedLimit?_eq_some_iff {e : Engine σ} {limit : Nat} :
    e.reachedLimit? = some limit ↔
      e.config.evolve.generationLimit.map UInt64.toNat = some limit ∧ limit ≤ e.generation := by
  rw [reachedLimit?, Option.filter_eq_some_iff, decide_eq_true_eq]

/-- A search that goes on has not come to its limit. -/
theorem lt_of_reachedLimit?_eq_none {e : Engine σ} {limit : UInt64}
    (hlimit : e.config.evolve.generationLimit = some limit) (h : e.reachedLimit? = none) :
    e.generation < limit.toNat := by
  have hset : e.config.evolve.generationLimit.map UInt64.toNat = some limit.toNat := by
    rw [hlimit]
    rfl
  apply Nat.lt_of_not_le
  intro hle
  have hreached : e.reachedLimit? = some limit.toNat := reachedLimit?_eq_some_iff.mpr ⟨hset, hle⟩
  rw [h] at hreached
  cases hreached

/-- No limit is reached exactly if the generation is below every limit that is set; there is one at
most. -/
theorem reachedLimit?_eq_none_iff {e : Engine σ} : e.reachedLimit? = none ↔
    ∀ limit, e.config.evolve.generationLimit = some limit → e.generation < limit.toNat := by
  constructor
  · intro h limit hlimit
    exact lt_of_reachedLimit?_eq_none hlimit h
  · intro h
    cases hreached : e.reachedLimit? with
    | none => rfl
    | some n =>
      rcases reachedLimit?_eq_some_iff.mp hreached with ⟨hset, hle⟩
      rcases Option.map_eq_some_iff.mp hset with ⟨limit, hlimit, rfl⟩
      exact absurd (h limit hlimit) (Nat.not_lt_of_le hle)

end Engine

namespace State

variable [RandomSource σ] {clock : Clock} {monitor : Monitor} {e : Engine σ} {s t : State σ}

/-! ## Before a generation -/

/-- A search that goes on has not reached its limit, and stamps the generation. -/
theorem next_stamp (h : s.step clock monitor = .next t) :
    s.engine.reachedLimit? = none ∧
      t.snapshots.map Progress.stamp =
        (.evaluating, s.engine.generation) :: s.snapshots.map Progress.stamp := by
  cases stepsTo_of_step h with
  | allInvalid _ hlimit _ _ => exact ⟨hlimit, rfl⟩
  | bred _ hlimit _ _ _ => exact ⟨hlimit, rfl⟩

/-- The stamps of the snapshots tell the whole course of a search: nothing is skipped and nothing
comes twice. -/
theorem Reachable.stamps (h : Reachable clock monitor e s) :
    (s.snapshots.map Progress.stamp).reverse = stampsBefore s.engine.generation := by
  induction h with
  | start => rfl
  | next _ hstep ih =>
    -- The newest snapshot is at the head of the list, so it comes last.
    rw [(next_stamp hstep).2, generation_next hstep, List.reverse_cons, ih, stampsBefore_succ]

/-- A search never passes its limit. -/
theorem Reachable.generation_le {limit : UInt64} (h : Reachable clock monitor e s)
    (hlimit : e.config.evolve.generationLimit = some limit) :
    s.engine.generation ≤ limit.toNat := by
  cases h with
  | start => exact Nat.zero_le _
  | next hs hstep =>
    have hgeneration := generation_next hstep
    -- The limit has been looked at before the generation, with the settings of the beginning.
    have hlt := Engine.lt_of_reachedLimit?_eq_none (by rw [hs.carried.1, hlimit])
      (next_stamp hstep).1
    omega

/-- As long as rounds are left beyond those to the limit, the search comes to an end. -/
theorem isSome_run {limit : UInt64} {rounds : Nat} (hs : Reachable clock monitor e s)
    (hlimit : e.config.evolve.generationLimit = some limit)
    (hrounds : limit.toNat < s.engine.generation + rounds) :
    (s.run clock monitor rounds).isSome := by
  induction rounds generalizing s with
  | zero =>
    have hle := hs.generation_le hlimit
    omega
  | succ rounds ih =>
    unfold run
    -- The search goes on with one round and one generation less to the limit, or it ends here.
    split
    · next t hstep =>
      apply ih (hs.next hstep)
      rw [generation_next hstep]
      omega
    · rfl

/-! ## Evaluations -/

/-- Whether a step scores the population. -/
def scores (s : State σ) : Bool :=
  !s.engine.cancelled && s.engine.reachedLimit?.isNone

/-- The number of populations that are scored within so many rounds. -/
def evaluations (clock : Clock) (monitor : Monitor) : (rounds : Nat) → State σ → Nat
  | 0, _ => 0
  | rounds + 1, s =>
    s.scores.toNat +
      match s.step clock monitor with
      | .next t => t.evaluations clock monitor rounds
      | .finished _ _ => 0

/-- Every evaluation takes one of the generations that are left before the limit. -/
theorem evaluations_le {limit : UInt64} (hs : Reachable clock monitor e s)
    (hlimit : e.config.evolve.generationLimit = some limit) (rounds : Nat) :
    s.engine.generation + s.evaluations clock monitor rounds ≤ limit.toNat := by
  induction rounds generalizing s with
  | zero => exact hs.generation_le hlimit
  | succ rounds ih =>
    -- A population is only scored where the limit has not been reached.
    have hscores : s.engine.generation + s.scores.toNat ≤ limit.toNat := by
      unfold scores
      cases hreached : s.engine.reachedLimit? with
      | some _ =>
        rw [Option.isNone_some, Bool.and_false]
        exact hs.generation_le hlimit
      | none =>
        have hlt := Engine.lt_of_reachedLimit?_eq_none (by rw [hs.carried.1, hlimit]) hreached
        have hone := Bool.toNat_le (!s.engine.cancelled && true)
        rw [Option.isNone_none]
        omega
    unfold evaluations
    split
    · next t hstep =>
      have hrest := ih (hs.next hstep)
      rw [generation_next hstep] at hrest
      have hone := Bool.toNat_le s.scores
      omega
    · exact hscores

/-! ## The end -/

/-- A search whose cancellation flag is clear at its end has ended in one of two ways: with a
program before the limit, or at the limit. -/
theorem finished_stamp {result : Except SearchError Report}
    (h : s.step clock monitor = .finished t result) (hclear : t.engine.cancelled = false) :
    t.engine.generation = s.engine.generation ∧ ∃ last,
      t.snapshots.map Progress.stamp =
        (last, s.engine.generation) :: s.snapshots.map Progress.stamp ∧
      (last = .complete ∧ s.engine.reachedLimit? = none ∧
          (∃ report, result = .ok report ∧ report.generation = s.engine.generation) ∨
        last = .stopped ∧ (∃ limit, s.engine.reachedLimit? = some limit) ∧
          result = .error (.exhausted s.engine.generation)) := by
  cases stepsTo_of_step h with
  | cancelled hcancelled =>
    -- The flag is never cleared, so it would still be set at the end.
    rw [engine_snapshot, engine_log, hcancelled, Bool.true_or] at hclear
    cases hclear
  | limitReached _ hlimit => exact ⟨rfl, .stopped, rfl, .inr ⟨rfl, ⟨_, hlimit⟩, rfl⟩⟩
  | found _ hlimit _ => exact ⟨rfl, .complete, rfl, .inl ⟨rfl, hlimit, _, rfl, rfl⟩⟩

end State

/-! ## Whole runs -/

namespace Engine

variable [RandomSource σ] {clock : Clock} {monitor : Monitor} {e : Engine σ} {rounds : Nat}

/-- A run whose cancellation flag stays clear has stamped its generations in order, and has found
a program before the limit or has come to the limit. -/
theorem Run.stamps {r : Run σ} (hr : e.run clock monitor rounds = some r)
    (hclear : r.engine.cancelled = false) :
    ∃ last, r.snapshots.map Progress.stamp =
        stampsBefore r.engine.generation ++ [(last, r.engine.generation)] ∧
      (last = .complete ∧
          (∀ limit, e.config.evolve.generationLimit = some limit →
            r.engine.generation < limit.toNat) ∧
          (∃ report, r.result = .ok report ∧ report.generation = r.engine.generation) ∨
        last = .stopped ∧
          (∃ limit, e.config.evolve.generationLimit = some limit ∧
            r.engine.generation = limit.toNat) ∧
          r.result = .error (.exhausted r.engine.generation)) := by
  rcases run_eq_some_iff.mp hr with ⟨s, t, result, hs, -, hstep, rfl⟩
  rcases State.finished_stamp hstep hclear with ⟨hgeneration, last, hstamps, hend⟩
  have hconfig := hs.carried.1
  dsimp only
  rw [hgeneration]
  refine ⟨last, ?_⟩
  constructor
  · rw [List.map_reverse, hstamps, List.reverse_cons, hs.stamps]
  · rcases hend with ⟨hlast, hlimit, hreport⟩ | ⟨hlast, ⟨limit, hlimit⟩, hresult⟩
    · -- The limit is that of the beginning, since settings are carried along.
      refine .inl ⟨hlast, ?_, hreport⟩
      intro limit hsome
      exact lt_of_reachedLimit?_eq_none (by rw [hconfig, hsome]) hlimit
    · rcases reachedLimit?_eq_some_iff.mp hlimit with ⟨hset, hle⟩
      rw [hconfig, Option.map_eq_some_iff] at hset
      rcases hset with ⟨limit, hsome, rfl⟩
      exact .inr ⟨hlast, ⟨limit, hsome, Nat.le_antisymm (hs.generation_le hsome) hle⟩, hresult⟩

/-- The number of populations that a search scores within so many rounds. -/
def evaluations (clock : Clock) (monitor : Monitor) (rounds : Nat) (e : Engine σ) : Nat :=
  (State.start monitor e).evaluations clock monitor rounds

theorem evaluations_le {limit : UInt64} (hlimit : e.config.evolve.generationLimit = some limit) :
    e.evaluations clock monitor rounds ≤ limit.toNat := by
  have hle : (State.start monitor e).engine.generation +
      (State.start monitor e).evaluations clock monitor rounds ≤ limit.toNat :=
    State.evaluations_le .start hlimit rounds
  rwa [State.generation_start, Nat.zero_add] at hle

/-- A run with a limit comes to its end. -/
theorem isSome_run {limit : UInt64} (hlimit : e.config.evolve.generationLimit = some limit)
    (hrounds : limit.toNat < rounds) : (e.run clock monitor rounds).isSome := by
  apply State.isSome_run .start hlimit
  rw [State.generation_start]
  omega

end Engine

/-- The trace of a run whose cancellation flag stays clear. Its snapshots are one at the beginning,
one for each generation that it goes on from, and a last one, which tells whether the run has found
a program or has come to its limit. With a limit the run does come to an end, within as many
evaluations as the limit says; without one it is never exhausted. -/
theorem run_trace [RandomSource σ] (clock : Clock) (monitor : Monitor) (e : Engine σ)
    (rounds : Nat) :
    (∀ r, e.run clock monitor rounds = some r → r.engine.cancelled = false →
      (∃ last, (last = .complete ∨ last = .stopped) ∧
        r.snapshots.map Progress.stamp =
          (.initializing, 0) :: (List.range r.engine.generation).map (Phase.evaluating, ·) ++
            [(last, r.engine.generation)] ∧
        (last = .complete ↔
          ∃ report, r.result = .ok report ∧ report.generation = r.engine.generation) ∧
        (last = .stopped ↔ r.result = .error (.exhausted r.engine.generation))) ∧
      (∀ limit, e.config.evolve.generationLimit = some limit →
        (∀ report, r.result = .ok report → r.engine.generation < limit.toNat) ∧
        (∀ k, r.result = .error (.exhausted k) → k = limit.toNat)) ∧
      (e.config.evolve.generationLimit = none → ∀ k, r.result ≠ .error (.exhausted k))) ∧
    (∀ limit, e.config.evolve.generationLimit = some limit →
      e.evaluations clock monitor rounds ≤ limit.toNat ∧
      (limit.toNat < rounds → (e.run clock monitor rounds).isSome)) := by
  constructor
  · intro r hr hclear
    rcases Engine.Run.stamps hr hclear with ⟨last, hstamps, hend⟩
    rcases hend with
      ⟨rfl, hbefore, report, hresult, hreport⟩ | ⟨rfl, ⟨limit, hlimit, hat⟩, hresult⟩
    · -- A program has been found, before the limit if there is one.
      refine ⟨⟨.complete, .inl rfl, hstamps, ?_, ?_⟩, ?_, ?_⟩
      · exact ⟨fun _ => ⟨report, hresult, hreport⟩, fun _ => rfl⟩
      · simp [hresult]
      · intro limit hlimit
        refine ⟨fun _ _ => hbefore limit hlimit, ?_⟩
        simp [hresult]
      · simp [hresult]
    · -- The limit has been reached, so there is one.
      refine ⟨⟨.stopped, .inr rfl, hstamps, ?_, ?_⟩, ?_, ?_⟩
      · simp [hresult]
      · exact ⟨fun _ => hresult, fun _ => rfl⟩
      · intro limit' hlimit'
        obtain rfl : limit = limit' := Option.some.inj (hlimit.symm.trans hlimit')
        constructor
        · simp [hresult]
        · intro k hk
          rw [hresult] at hk
          cases hk
          exact hat
      · intro hnone
        rw [hnone] at hlimit
        cases hlimit
  · intro limit hlimit
    exact ⟨Engine.evaluations_le hlimit, Engine.isSome_run hlimit⟩

/-- A search without a winner in its first population is exhausted by a limit of one generation. -/
theorem Engine.exists_run_of_no_winner [RandomSource σ] {clock : Clock} {log : LogFilter}
    {e : Engine σ} (hclear : e.cancelled = false)
    (hlimit : e.config.evolve.generationLimit = some 1)
    (hwinner : ((State.start (.passive log) e).evaluate clock).winner = none) :
    ∃ u : State σ, e.run clock (.passive log) 2 =
        some ⟨u.engine, .error (.exhausted 1), u.snapshots.reverse, u.events.reverse⟩ ∧
      u.engine.cancelled = false ∧ u.engine.generation = 1 := by
  have hwatched := Monitor.cancels_passive log
  have hflag : (State.start (.passive log) e).engine.cancelled = false :=
    (State.cancelled_start hwatched e).trans hclear
  have hnone : (State.start (.passive log) e).engine.reachedLimit? = none := by
    show (e.config.evolve.generationLimit.map UInt64.toNat).filter (· ≤ 0) = none
    rw [hlimit]
    rfl
  have hnext : ∃ t, (State.start (.passive log) e).step clock (.passive log) = .next t :=
    State.exists_next hflag hnone hwinner
  rcases hnext with ⟨t, hnext⟩
  have hstays := State.cancelled_next hwatched hnext
  have hgeneration : t.engine.generation = 1 := State.generation_next hnext
  have hreached : t.engine.reachedLimit? = some 1 := by
    have hconfig : t.engine.config = e.config := (State.carries_next hnext).1
    rw [Engine.reachedLimit?, hgeneration, hconfig, hlimit]
    rfl
  have hlast : ∃ u, t.step clock (.passive log) = .finished u (.error (.exhausted 1)) := by
    rw [← hgeneration]
    exact ⟨_, (State.StepsTo.limitReached hstays hreached).step_eq⟩
  rcases hlast with ⟨u, hlast⟩
  have hend := (State.cancelled_finished hwatched hlast).trans hstays
  refine ⟨u, ?_, hend, (State.finished_stamp hlast hend).1.trans hgeneration⟩
  rw [Engine.run, State.run_of_next hnext, State.run_of_finished hlast]

/-- A search whose first programs have one symbol each, none of which begins a loop, begins with the
programs of the symbols that are drawn. -/
theorem State.population_start_of_one [RandomSource σ] {monitor : Monitor} {e : Engine σ}
    (hlength : e.config.evolve.initialProgramSize = 1)
    (h : ∀ s ∈ (firstSymbols e.config.evolve.populationSize.toNat e.source).1, s ≠ .loopOpen) :
    (State.start monitor e).population =
      (firstSymbols e.config.evolve.populationSize.toNat e.source).1.map fun s => ⟨[s]⟩ := by
  show ((randomPopulation e.config.evolve.populationSize.toNat
    e.config.evolve.initialProgramSize.toNat).run e.source).1 = _
  rw [hlength]
  exact congrArg Prod.fst (run_randomPopulation_one h)

/-- An engine that an earlier search has left at generation 7, stagnant, with a limit of one
generation for the next one. -/
def Engine.stale : Engine Script where
  config :=
    { evolve := { populationSize := 2, initialProgramSize := 1, generationLimit := some 1 } }
  examples := [⟨"", "a"⟩]
  source := ⟨[]⟩
  generation := 7
  stagnation := ⟨10, some 3, 12, true⟩
  cancelled := false

theorem Engine.population_start_stale :
    (State.start (.passive none) Engine.stale).population = [⟨[.increment]⟩, ⟨[.increment]⟩] := by
  rw [State.population_start_of_one rfl (by decide)]
  rfl

/-- The search of the stale engine goes on from its first generation and stops at its second. -/
theorem Engine.exists_run_stale :
    ∃ u : State Script, Engine.stale.run .steady (.passive none) 2 =
        some ⟨u.engine, .error (.exhausted 1), u.snapshots.reverse, u.events.reverse⟩ ∧
      u.engine.cancelled = false ∧ u.engine.generation = 1 := by
  apply Engine.exists_run_of_no_winner rfl rfl
  unfold State.evaluate
  rw [Engine.population_start_stale]
  decide

/-- The stale engine begins anew: what an earlier search has left does not show in the trace. -/
theorem run_trace_stale :
    ∃ r, Engine.stale.run .steady (.passive none) 2 = some r ∧ r.engine.cancelled = false ∧
      r.result = .error (.exhausted 1) ∧
      r.snapshots.map Progress.stamp = [(.initializing, 0), (.evaluating, 0), (.stopped, 1)] := by
  rcases Engine.exists_run_stale with ⟨u, hrun, hclear, hgeneration⟩
  rcases (run_trace .steady (.passive none) Engine.stale 2).1 _ hrun hclear with
    ⟨⟨last, -, hstamps, -, hstopped⟩, -, -⟩
  rw [hgeneration] at hstamps hstopped
  obtain rfl := hstopped.mpr rfl
  exact ⟨_, hrun, hclear, rfl, hstamps⟩

end TapeBreeder
