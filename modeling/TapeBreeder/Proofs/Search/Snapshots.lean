import TapeBreeder.Proofs.Search.Trace

/-!
# What snapshots tell

A snapshot that is taken of a generation tells of its evaluation. A search goes through one state
for each generation, so that what is known of the states of a search is known of its snapshots.

* `Progress.TellsOf` — a snapshot of the evaluation of a state.
* `State.start_snapshot`, `State.next_snapshot`, `State.finished_snapshot` — the one snapshot that
  is taken at the start and in each step.
* `State.Visits` — the states of a search, with the last one. The snapshots of a run are those of a
  visited state (`Engine.exists_visits_of_run`).
* `State.Visits.exists_tellsOf` — every snapshot of a generation tells of a reachable state, and
  there is one for each generation (`State.Reachable.eq_of_generation_eq`).
-/

namespace TapeBreeder

variable {σ : Type}

/-- Whether a population has been scored for a snapshot: the search goes on from it, or has found a
program in it. -/
def Progress.IsScored (p : Progress) : Prop :=
  p.phase = .evaluating ∨ p.phase = .complete

/-- The first snapshot comes before any evaluation, and one that says that the search stops does
without. -/
theorem Progress.not_isScored {p : Progress}
    (h : p.phase = .initializing ∨ p.phase = .stopped) : ¬ p.IsScored := by
  unfold IsScored
  rcases h with hphase | hphase <;> rw [hphase] <;> decide

/-- Whether a snapshot tells of the evaluation of a state. -/
structure Progress.TellsOf (clock : Clock) (s : State σ) (p : Progress) : Prop where
  generation : p.generation = s.engine.generation
  populationSize : p.populationSize = s.population.length
  invalidCount : p.invalidCount = (s.evaluate clock).invalid
  bestCost : p.bestCost = (s.evaluate clock).scored.head?.map (·.cost)
  bestProgram : p.bestProgram = (s.evaluate clock).scored.head?.map (·.program)
  bestBaseCost : p.bestBaseCost = (s.evaluate clock).bestBaseCost?
  timeCost : p.timeCost = (s.evaluate clock).timeCost

theorem Progress.TellsOf.bestCost_eq_none_iff {clock : Clock} {s : State σ} {p : Progress}
    (h : p.TellsOf clock s) : p.bestCost = none ↔ (s.evaluate clock).scored = [] := by
  rw [h.bestCost, Option.map_eq_none_iff, List.head?_eq_none_iff]

namespace State

variable [RandomSource σ] {clock : Clock} {monitor : Monitor} {e : Engine σ} {s t : State σ}

/-! ## The snapshot of a step -/

theorem start_snapshot (monitor : Monitor) (e : Engine σ) :
    ∃ p, (start monitor e).snapshots = [p] ∧ p.phase = .initializing :=
  ⟨_, rfl, rfl⟩

/-- The stagnation after a generation: nothing is observed where no program is valid. -/
def stagnationAfter (clock : Clock) (s : State σ) : Stagnation :=
  match (s.evaluate clock).bestBaseCost? with
  | some best => s.engine.stagnation.observe best
  | none => s.engine.stagnation

/-- A search that goes on tells of its evaluation, and of the stagnation after it. -/
theorem next_snapshot (h : s.step clock monitor = .next t) :
    t.engine.stagnation = s.stagnationAfter clock ∧
      ∃ p, t.snapshots = p :: s.snapshots ∧ p.phase = .evaluating ∧ p.TellsOf clock s ∧
        p.flatGenerations = (s.stagnationAfter clock).flatGenerations ∧
        p.stagnant = (s.stagnationAfter clock).isStagnant := by
  unfold stagnationAfter
  cases stepsTo_of_step h with
  | allInvalid _ _ _ hbest =>
    rw [hbest]
    exact ⟨rfl, _, rfl, rfl, ⟨rfl, rfl, rfl, rfl, rfl, rfl, rfl⟩, rfl, rfl⟩
  | bred _ _ _ hbest _ =>
    rw [hbest]
    exact ⟨rfl, _, rfl, rfl, ⟨rfl, rfl, rfl, rfl, rfl, rfl, rfl⟩, rfl, rfl⟩

/-- A search that ends with a program tells of the evaluation that it was found in. -/
theorem finished_snapshot {result : Except SearchError Report}
    (h : s.step clock monitor = .finished t result) :
    ∃ p, t.snapshots = p :: s.snapshots ∧
      (p.phase = .stopped ∨ p.phase = .complete ∧ p.TellsOf clock s) := by
  cases stepsTo_of_step h with
  | cancelled _ => exact ⟨_, rfl, .inl rfl⟩
  | limitReached _ _ => exact ⟨_, rfl, .inl rfl⟩
  | found _ _ _ => exact ⟨_, rfl, .inr ⟨rfl, rfl, rfl, rfl, rfl, rfl, rfl, rfl⟩⟩

/-! ## One state for each generation -/

/-- A search has one state for each generation. So what is said of the state of a generation can be
said of the generation. -/
theorem Reachable.eq_of_generation_eq (hs : Reachable clock monitor e s)
    (ht : Reachable clock monitor e t) (h : s.engine.generation = t.engine.generation) :
    s = t := by
  -- A step leads to one state only, and it counts the generation.
  induction hs generalizing t with
  | start =>
    cases ht with
    | start => rfl
    | next _ hstep =>
      rw [generation_next hstep, generation_start] at h
      omega
  | next _ hstep ih =>
    cases ht with
    | start =>
      rw [generation_next hstep, generation_start] at h
      omega
    | next ht hstep' =>
      rw [generation_next hstep, generation_next hstep'] at h
      obtain rfl := ih ht (Nat.succ.inj h)
      rw [hstep] at hstep'
      exact Step.next.inj hstep'

/-- A search comes to a generation from the one before it. -/
theorem Reachable.exists_step (ht : Reachable clock monitor e t)
    (h : t.engine.generation ≠ 0) :
    ∃ s, Reachable clock monitor e s ∧ s.step clock monitor = .next t := by
  cases ht with
  | start => exact absurd rfl h
  | next hs hstep => exact ⟨_, hs, hstep⟩

/-! ## Visited states -/

/-- The states that a search goes through: those between its generations, and the last one. -/
inductive Visits (clock : Clock) (monitor : Monitor) (e : Engine σ) : State σ → Prop where
  | between {s : State σ} (hs : Reachable clock monitor e s) : Visits clock monitor e s
  | last {s t : State σ} {result : Except SearchError Report} (hs : Reachable clock monitor e s)
      (hstep : s.step clock monitor = .finished t result) : Visits clock monitor e t

/-- Every snapshot of a scored population tells of a state that the search has been in. -/
theorem Reachable.exists_tellsOf {p : Progress} (ht : Reachable clock monitor e t)
    (hp : p ∈ t.snapshots) (hscored : p.IsScored) :
    ∃ s, Reachable clock monitor e s ∧ p.TellsOf clock s := by
  induction ht with
  | start =>
    -- No population has been scored for the first snapshot.
    rcases start_snapshot monitor e with ⟨q, hsnapshots, hphase⟩
    rw [hsnapshots] at hp
    obtain rfl := List.mem_singleton.mp hp
    exact absurd hscored (Progress.not_isScored (.inl hphase))
  | next hs hstep ih =>
    rcases next_snapshot hstep with ⟨-, q, hsnapshots, -, htells, -⟩
    rw [hsnapshots] at hp
    -- The newest snapshot tells of the state before the step, and the older ones were there
    -- already.
    rcases List.mem_cons.mp hp with rfl | hp
    · exact ⟨_, hs, htells⟩
    · exact ih hp

/-- The same of the last snapshot, which may tell of the state before it. -/
theorem Visits.exists_tellsOf {p : Progress} (ht : Visits clock monitor e t)
    (hp : p ∈ t.snapshots) (hscored : p.IsScored) :
    ∃ s, Reachable clock monitor e s ∧ p.TellsOf clock s := by
  cases ht with
  | between ht => exact ht.exists_tellsOf hp hscored
  | last hs hstep =>
    rcases finished_snapshot hstep with ⟨q, hsnapshots, hq⟩
    rw [hsnapshots] at hp
    rcases List.mem_cons.mp hp with rfl | hp
    · rcases hq with hstopped | ⟨-, htells⟩
      · exact absurd hscored (Progress.not_isScored (.inr hstopped))
      · exact ⟨_, hs, htells⟩
    · exact hs.exists_tellsOf hp hscored

/-- A population that is scored shows in a snapshot, whether the search goes on from it or not. -/
theorem Reachable.exists_visits (hs : Reachable clock monitor e s)
    (hcancelled : s.engine.cancelled = false) (hlimit : s.engine.reachedLimit? = none) :
    ∃ t p, Visits clock monitor e t ∧ t.snapshots = p :: s.snapshots ∧ p.IsScored := by
  -- The search goes on, or it ends by finding a program: the other ends are excluded.
  cases hstep : s.step clock monitor with
  | next t =>
    rcases next_snapshot hstep with ⟨-, p, hsnapshots, hphase, -⟩
    exact ⟨t, p, .between (hs.next hstep), hsnapshots, .inl hphase⟩
  | finished t result =>
    have hend := stepsTo_of_step hstep
    cases hend with
    | cancelled h =>
      rw [hcancelled] at h
      cases h
    | limitReached _ h =>
      rw [hlimit] at h
      cases h
    | found _ _ _ => exact ⟨_, _, .last hs hstep, rfl, .inr rfl⟩

end State

/-- The snapshots of a run are those of the last state that its search visits. -/
theorem Engine.exists_visits_of_run [RandomSource σ] {clock : Clock} {monitor : Monitor}
    {rounds : Nat} {e : Engine σ} {r : Engine.Run σ} (h : e.run clock monitor rounds = some r) :
    ∃ t, State.Visits clock monitor e t ∧ r.snapshots = t.snapshots.reverse := by
  rcases run_eq_some_iff.mp h with ⟨s, t, result, hs, -, hstep, rfl⟩
  exact ⟨t, .last hs hstep, rfl⟩

end TapeBreeder
