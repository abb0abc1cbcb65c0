import TapeBreeder.Proofs.Search.Snapshots

/-!
# What a search goes by

The generation limit and the cancellation flag of a search say where it ends, and its log, its
verbosity and the budget of its samples say what is shown of it. None of them says where it goes: a
search without all of these, its core, comes through the same generations.

* `State.core` — what is left of a state without them.
* `State.next_core`, `State.Reachable.core` — the core of a search is a search, that of its core.
* `State.Reachable.core_eq` — searches with one core agree in every generation that both come to.
* `State.Reachable.exists_counterpart` — and they come to the same generations, as far as limit and
  flag let them.
* `State.found_of_core_eq` — where one of them finds a program, so does the other.
-/

namespace TapeBreeder

variable {σ : Type}

/-! ## Cores -/

/-- The settings that a search goes by. -/
def EvolveOptions.core (options : EvolveOptions) : EvolveOptions :=
  { options with generationLimit := none, timeoutMs := 0, verbose := false }

/-- An engine without its limit, its flag and the settings of what is shown. -/
def Engine.core (e : Engine σ) : Engine σ :=
  { e with config := { e.config with evolve := e.config.evolve.core }, cancelled := false }

/-- A snapshot that does not tell of the generation limit. -/
def Progress.unlimited (p : Progress) : Progress :=
  { p with generationLimit := none }

namespace State

/-- A state without the limit and the flag of its engine, and without its log. -/
def core (s : State σ) : State σ :=
  ⟨s.engine.core, s.population, s.snapshots.map Progress.unlimited, []⟩

/-! Each part of a step goes over to the core, where nothing is logged. -/

/-- A monitor that logs nothing leaves states alone, so the log can be left out of a core. -/
theorem log_silent (event : Option Event) (s : State σ) :
    s.log (.passive none) event = s := by
  cases event <;> rfl

theorem core_log (monitor : Monitor) (event : Option Event) (s : State σ) :
    (s.log monitor event).core = s.core :=
  rfl

/-- A snapshot is taken of the core as well. Whether the search is cancelled at it is left out, like
the flag. -/
theorem core_snapshot (monitor : Monitor) (evaluation : Option Evaluation) (phase : Phase)
    (s : State σ) :
    (s.snapshot monitor evaluation phase).core =
      s.core.snapshot (.passive none) evaluation phase :=
  rfl

theorem core_advance (draws : StateM σ (List Program)) (s : State σ) :
    (s.advance draws).core = s.core.advance draws :=
  rfl

theorem core_observe (monitor : Monitor) (best : Charge) (s : State σ) :
    (s.observe monitor best).core = s.core.observe (.passive none) best := by
  unfold observe
  rw [log_silent]
  rfl

/-- Scoring a population is the same for the core, whose settings for costs are those of the
search. -/
theorem evaluate_core (clock : Clock) (s : State σ) : s.core.evaluate clock = s.evaluate clock :=
  rfl

theorem evaluate_of_core_eq {s s' : State σ} (h : s.core = s'.core) (clock : Clock) :
    s.evaluate clock = s'.evaluate clock := by
  rw [← evaluate_core, h, evaluate_core]

/-- The generation is part of the core, so states with different numbers are not compared. -/
theorem generation_of_core_eq {s s' : State σ} (h : s.core = s'.core) :
    s.engine.generation = s'.engine.generation :=
  congrArg (·.engine.generation) h

variable [RandomSource σ] {clock : Clock} {monitor monitor' : Monitor} {e e' : Engine σ}
  {s s' t : State σ}

/-! ## Cores of searches -/

/-- A search starts from its core. Nothing of the first population depends on what is left out. -/
theorem core_start (monitor : Monitor) (e : Engine σ) :
    (start monitor e).core = start (.passive none) e.core :=
  rfl

/-- However a search is limited, watched and logged, its core takes the same step. -/
theorem next_core (h : s.step clock monitor = .next t) :
    s.core.step clock (.passive none) = .next t.core := by
  -- A step that goes on is one of two kinds, and its premises hold for the core as they stand.
  cases stepsTo_of_step h with
  | allInvalid _ _ hwinner hbest =>
    have hstep : StepsTo clock (.passive none) s.core _ := .allInvalid rfl rfl hwinner hbest
    rw [hstep.step_eq, log_silent]
    rfl
  | bred _ _ hwinner hbest _ =>
    have hstep : StepsTo clock (.passive none) s.core _ := .bred rfl rfl hwinner hbest rfl
    rw [hstep.step_eq, log_silent, core_advance, core_snapshot, core_log, core_observe]
    rfl

/-- The core of a reachable state is reachable for the core of the engine. -/
theorem Reachable.core (hs : Reachable clock monitor e s) :
    Reachable clock (.passive none) e.core s.core := by
  induction hs with
  | start =>
    rw [core_start]
    exact .start
  | next _ hstep ih => exact ih.next (next_core hstep)

/-- Searches with one core agree in every generation that both of them come to. -/
theorem Reachable.core_eq (hcore : e.core = e'.core) (hs : Reachable clock monitor e s)
    (hs' : Reachable clock monitor' e' s') (h : s.engine.generation = s'.engine.generation) :
    s.core = s'.core := by
  have hsearch : Reachable clock (.passive none) e.core s.core := hs.core
  have hsearch' : Reachable clock (.passive none) e.core s'.core := hcore ▸ hs'.core
  exact hsearch.eq_of_generation_eq hsearch' h

/-- A search goes on where another one with its core does, unless its limit or its flag ends it. -/
theorem exists_next_of_core_eq (hcore : s.core = s'.core) (h : s.step clock monitor = .next t)
    (hcancelled : s'.engine.cancelled = false) (hlimit : s'.engine.reachedLimit? = none) :
    ∃ t', s'.step clock monitor' = .next t' := by
  have hwinner : (s'.evaluate clock).winner = none := by
    rw [← evaluate_of_core_eq hcore]
    cases stepsTo_of_step h <;> assumption
  exact exists_next hcancelled hlimit hwinner

/-- A search comes to the generations that another one with its core comes to, as long as its limit
and its flag let it, and in each of them the two agree. -/
theorem Reachable.exists_counterpart (hcore : e.core = e'.core)
    (hclear : ∀ s', Reachable clock monitor' e' s' → s'.engine.cancelled = false)
    (hs : Reachable clock monitor e s)
    (hlimit : ∀ limit, e'.config.evolve.generationLimit = some limit →
      s.engine.generation ≤ limit.toNat) :
    ∃ s', Reachable clock monitor' e' s' ∧ s.core = s'.core := by
  induction hs with
  | start =>
    refine ⟨State.start monitor' e', .start, ?_⟩
    rw [core_start, core_start, hcore]
  | @next s t hs hstep ih =>
    have hgeneration := generation_next hstep
    have hbefore : ∀ limit, e'.config.evolve.generationLimit = some limit →
        s.engine.generation ≤ limit.toNat := by
      intro limit hsome
      have hle := hlimit limit hsome
      omega
    rcases ih hbefore with ⟨s', hs', hagree⟩
    have hsame : s.engine.generation = s'.engine.generation := generation_of_core_eq hagree
    -- The limit of the other search is not reached before the generation that is asked for.
    have hopen : s'.engine.reachedLimit? = none := by
      apply Engine.reachedLimit?_eq_none_iff.mpr
      intro limit hsome
      rw [hs'.carried.1] at hsome
      have hle := hlimit limit hsome
      omega
    have hnext : ∃ t', s'.step clock monitor' = .next t' :=
      exists_next_of_core_eq hagree hstep (hclear s' hs') hopen
    rcases hnext with ⟨t', hnext⟩
    have hreached : t.engine.generation = t'.engine.generation := by
      rw [generation_next hstep, generation_next hnext, hsame]
    exact ⟨t', hs'.next hnext, (hs.next hstep).core_eq hcore (hs'.next hnext) hreached⟩

/-- Where a search finds a program, so does another one with its core. -/
theorem found_of_core_eq {report : Report} (hcore : s.core = s'.core)
    (h : s.step clock monitor = .finished t (.ok report))
    (hcancelled : s'.engine.cancelled = false) (hlimit : s'.engine.reachedLimit? = none) :
    ∃ t' winner, report = s.engine.report clock winner ∧
      s'.step clock monitor' = .finished t' (.ok (s'.engine.report clock winner)) ∧
      t'.core = t.core := by
  cases stepsTo_of_step h with
  | @found winner _ _ hwinner =>
    have hwinner' : (s'.evaluate clock).winner = some winner := by
      rw [← evaluate_of_core_eq hcore, hwinner]
    refine ⟨_, winner, rfl, (StepsTo.found hcancelled hlimit hwinner').step_eq, ?_⟩
    rw [core_snapshot, core_snapshot, core_log, core_log, hcore, evaluate_of_core_eq hcore]

end State

end TapeBreeder
