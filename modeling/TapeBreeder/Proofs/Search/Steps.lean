import TapeBreeder.Search.Engine

/-!
# The steps of a search

What can happen with a search is said once, here, and everything about whole searches is derived
from it.

* `State.StepsTo` — the five things that can happen, each with all of its guards. By
  `State.stepsTo_step` the step of a state is one of them.
* `State.Reachable` — the states between the generations of a search, each of which counts one
  (`State.generation_next`).
* `State.Reachable.carried` — a search never changes its settings or its examples.
-/

namespace TapeBreeder

variable {σ : Type}

/-- A monitor that only logs meets the assumption of the lemmas on searches that nobody cancels. -/
theorem Monitor.cancels_passive (log : LogFilter) (snapshots : List Progress) :
    (passive log).cancels snapshots = false :=
  rfl

namespace State

/-! ## What the parts of a step leave alone -/

@[simp] theorem engine_log (monitor : Monitor) (event : Option Event) (s : State σ) :
    (s.log monitor event).engine = s.engine :=
  rfl

/-- A snapshot changes the cancellation flag of the engine at most. -/
theorem engine_snapshot (monitor : Monitor) (evaluation : Option Evaluation) (phase : Phase)
    (s : State σ) :
    (s.snapshot monitor evaluation phase).engine =
      { s.engine with
        cancelled := s.engine.cancelled || monitor.cancels (s.engine.progress s.population.length
          evaluation phase :: s.snapshots) } :=
  rfl

/-- Going on to the next generation makes the draws and counts the generation. -/
theorem engine_advance (draws : StateM σ (List Program)) (s : State σ) :
    (s.advance draws).engine =
      { s.engine with
        source := (draws.run s.engine.source).2, generation := s.engine.generation + 1 } :=
  rfl

@[simp] theorem population_advance (draws : StateM σ (List Program)) (s : State σ) :
    (s.advance draws).population = (draws.run s.engine.source).1 :=
  rfl

/-- Taking note of the best cost changes the stagnation of the engine only. -/
theorem engine_observe (monitor : Monitor) (best : Charge) (s : State σ) :
    (s.observe monitor best).engine =
      { s.engine with stagnation := s.engine.stagnation.observe best } :=
  rfl

/-! ## Steps -/

variable [RandomSource σ] {clock : Clock} {monitor : Monitor}

/-- What can happen with a search before a generation. -/
inductive StepsTo (clock : Clock) (monitor : Monitor) (s : State σ) : Step σ → Prop where
  | cancelled (hcancelled : s.engine.cancelled = true) :
    StepsTo clock monitor s <| .finished
      ((s.log monitor (some (.cancelled s.engine.generation))).snapshot monitor none .stopped)
      (.error .cancelled)
  | limitReached {limit : Nat} (hcancelled : s.engine.cancelled = false)
      (hlimit : s.engine.reachedLimit? = some limit) :
    StepsTo clock monitor s <| .finished
      ((s.log monitor (some (.limitReached limit))).snapshot monitor none .stopped)
      (.error (.exhausted s.engine.generation))
  | found {winner : Program} (hcancelled : s.engine.cancelled = false)
      (hlimit : s.engine.reachedLimit? = none) (hwinner : (s.evaluate clock).winner = some winner) :
    StepsTo clock monitor s <| .finished
      ((s.log monitor (some (.found s.engine.generation))).snapshot monitor (s.evaluate clock)
        .complete)
      (.ok (s.engine.report clock winner))
  | allInvalid (hcancelled : s.engine.cancelled = false) (hlimit : s.engine.reachedLimit? = none)
      (hwinner : (s.evaluate clock).winner = none)
      (hbest : (s.evaluate clock).bestBaseCost? = none) :
    StepsTo clock monitor s <| .next <|
      ((s.log monitor (some (.allInvalid s.engine.generation s.population.length))).snapshot
        monitor (s.evaluate clock) .evaluating).advance s.engine.firstPopulation
  | bred {best : Charge} {event : Option Event} (hcancelled : s.engine.cancelled = false)
      (hlimit : s.engine.reachedLimit? = none) (hwinner : (s.evaluate clock).winner = none)
      (hbest : (s.evaluate clock).bestBaseCost? = some best)
      (hevent : event = (s.observe monitor best).engine.generationEvent? clock s.population.length
        (s.evaluate clock)) :
    StepsTo clock monitor s <| .next <|
      (((s.observe monitor best).log monitor event).snapshot monitor (s.evaluate clock)
        .evaluating).advance <|
          nextGeneration s.engine.config.evolve s.engine.config.mutation (s.evaluate clock)

/-- A step of a search is one of the things that can happen. This is the only place where the
branches of a step are opened. -/
theorem stepsTo_step (clock : Clock) (monitor : Monitor) (s : State σ) :
    StepsTo clock monitor s (s.step clock monitor) := by
  unfold step
  split
  · next hcancelled => exact .cancelled hcancelled
  · next hcancelled =>
    have hclear : s.engine.cancelled = false := Bool.eq_false_iff.mpr hcancelled
    cases hlimit : s.engine.reachedLimit? with
    | some limit => exact .limitReached hclear hlimit
    | none =>
      -- Neither cancelled nor at the limit: the population is scored.
      unfold resume
      cases hwinner : (s.evaluate clock).winner with
      | some winner => exact .found hclear hlimit hwinner
      | none =>
        cases hbest : (s.evaluate clock).bestBaseCost? with
        | none => exact .allInvalid hclear hlimit hwinner hbest
        | some best => exact .bred hclear hlimit hwinner hbest rfl

/-- What a step has led to is one of the things that can happen. -/
theorem stepsTo_of_step {s : State σ} {result : Step σ} (h : s.step clock monitor = result) :
    StepsTo clock monitor s result := by
  rw [← h]
  exact stepsTo_step clock monitor s

/-- Each of the things that can happen does happen where its guards hold. -/
theorem StepsTo.step_eq {s : State σ} {result : Step σ} (h : StepsTo clock monitor s result) :
    s.step clock monitor = result := by
  cases h with
  | cancelled hcancelled => rw [step, if_pos hcancelled]
  | limitReached hcancelled hlimit =>
    rw [step, if_neg (Bool.eq_false_iff.mp hcancelled), hlimit]
  | found hcancelled hlimit hwinner =>
    rw [step, if_neg (Bool.eq_false_iff.mp hcancelled), hlimit]
    simp only [resume, hwinner]
  | allInvalid hcancelled hlimit hwinner hbest =>
    rw [step, if_neg (Bool.eq_false_iff.mp hcancelled), hlimit]
    simp only [resume, hwinner, hbest]
  | bred hcancelled hlimit hwinner hbest hevent =>
    rw [step, if_neg (Bool.eq_false_iff.mp hcancelled), hlimit, hevent]
    simp only [resume, hwinner, hbest]
    rfl

/-- A search goes on as long as nothing ends it. -/
theorem exists_next {s : State σ} (hcancelled : s.engine.cancelled = false)
    (hlimit : s.engine.reachedLimit? = none) (hwinner : (s.evaluate clock).winner = none) :
    ∃ t, s.step clock monitor = .next t := by
  cases hbest : (s.evaluate clock).bestBaseCost? with
  | none => exact ⟨_, (StepsTo.allInvalid hcancelled hlimit hwinner hbest).step_eq⟩
  | some best => exact ⟨_, (StepsTo.bred hcancelled hlimit hwinner hbest rfl).step_eq⟩

/-- A search ends with its winner. -/
theorem exists_finished {s : State σ} {winner : Program} (hcancelled : s.engine.cancelled = false)
    (hlimit : s.engine.reachedLimit? = none) (hwinner : (s.evaluate clock).winner = some winner) :
    ∃ t, s.step clock monitor = .finished t (.ok (s.engine.report clock winner)) :=
  ⟨_, (StepsTo.found hcancelled hlimit hwinner).step_eq⟩

/-- A search that is watched by nobody starts with the flag of its engine. -/
theorem cancelled_start (hwatched : ∀ snapshots, monitor.cancels snapshots = false)
    (e : Engine σ) : (start monitor e).engine.cancelled = e.cancelled := by
  show (e.cancelled || monitor.cancels _) = e.cancelled
  rw [hwatched, Bool.or_false]

/-- A search that nobody cancels while it is watched keeps its flag as it is. -/
theorem cancelled_next {s t : State σ} (hwatched : ∀ snapshots, monitor.cancels snapshots = false)
    (h : s.step clock monitor = .next t) : t.engine.cancelled = false := by
  cases stepsTo_of_step h with
  | allInvalid hcancelled _ _ _ =>
    rw [engine_advance, engine_snapshot, engine_log, hcancelled, hwatched]
    rfl
  | bred hcancelled _ _ _ _ =>
    rw [engine_advance, engine_snapshot, engine_log, engine_observe, hcancelled, hwatched]
    rfl

theorem cancelled_finished {s t : State σ} {result : Except SearchError Report}
    (hwatched : ∀ snapshots, monitor.cancels snapshots = false)
    (h : s.step clock monitor = .finished t result) :
    t.engine.cancelled = s.engine.cancelled := by
  -- Every end takes a last snapshot, and only snapshots are watched.
  cases stepsTo_of_step h <;> rw [engine_snapshot, engine_log, hwatched] <;> exact Bool.or_false _

/-! ## Searches -/

/-- The states of a search between its generations. -/
inductive Reachable (clock : Clock) (monitor : Monitor) (e : Engine σ) : State σ → Prop where
  | start : Reachable clock monitor e (start monitor e)
  | next {s t : State σ} (hs : Reachable clock monitor e s)
      (hstep : s.step clock monitor = .next t) : Reachable clock monitor e t

@[simp] theorem generation_start (monitor : Monitor) (e : Engine σ) :
    (start monitor e).engine.generation = 0 :=
  rfl

/-- Every step that does not end a search counts one generation. -/
theorem generation_next {s t : State σ} (h : s.step clock monitor = .next t) :
    t.engine.generation = s.engine.generation + 1 := by
  cases stepsTo_of_step h <;> rfl

/-- What a search carries along unchanged. -/
def Carries (e : Engine σ) (s : State σ) : Prop :=
  s.engine.config = e.config ∧ s.engine.examples = e.examples

theorem carries_start (monitor : Monitor) (e : Engine σ) : Carries e (start monitor e) := by
  constructor <;> rfl

theorem carries_next {s t : State σ} (h : s.step clock monitor = .next t) :
    Carries s.engine t := by
  cases stepsTo_of_step h <;> constructor <;> rfl

/-- The settings and the examples are the same in all states of a search, so that a lemma on one
state can be used at any time. -/
theorem Reachable.carried {e : Engine σ} {s : State σ} (h : Reachable clock monitor e s) :
    Carries e s := by
  induction h with
  | start => exact carries_start monitor e
  | next _ hstep ih =>
    rcases carries_next hstep with ⟨hconfig, hexamples⟩
    constructor
    · exact hconfig.trans ih.1
    · exact hexamples.trans ih.2

end State

end TapeBreeder
