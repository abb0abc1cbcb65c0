import TapeBreeder.Proofs.Population.Evaluation
import TapeBreeder.Proofs.Safety.Breeding
import TapeBreeder.Proofs.Search.Trace

/-!
# Searches under guard

The phases between two generations and the search itself once more, with every range, difference
and access guarded. What makes a guard pass may stand far from it: breeding needs a best program,
and that there is one is seen to where a population without valid programs is drawn anew.

* `passes_nextGeneration` — breeding passes for an evaluation that has scored any program at all.
* `Guarded.step_eq` — the step of every reachable state passes.
* `run_passes_guards` — no search ever meets a violation, whatever is drawn.
-/

namespace TapeBreeder

namespace Guarded

variable {σ : Type}

/-! ## From one generation to the next -/

/-- Go on to the next generation with a population that is to be drawn. -/
def advance (draws : Guarded σ (List Program)) (s : State σ) : Except Violation (State σ) := do
  let (population, source) ← draws.run s.engine.source
  let engine := { s.engine with source, generation := s.engine.generation + 1 }
  return { s with population, engine }

/-- Going on with draws that pass is going on with what they draw. -/
theorem advance_eq {guarded : Guarded σ (List Program)} {draws : StateM σ (List Program)}
    (h : Passes guarded draws) (s : State σ) : advance guarded s = .ok (s.advance draws) := by
  rw [advance, h s.engine.source]
  rfl

variable [RandomSource σ]

/-! ## Guarded phases -/

/-- The length of the random programs that fill places. -/
def fillLength (survivors : List Program) (best : Program) : Guarded σ Nat := do
  if survivors.isEmpty then
    return max best.length 1
  else
    let index ← below survivors.length
    let survivor ← item survivors index
    return max survivor.length 1

/-- Fill the places of `quota` invalid programs. -/
def replaceInvalids (options : MutateOptions) (survivors : List Program) (best : Program)
    (quota : Nat) : Guarded σ (List Program) := do
  if quota = 0 then
    return survivors
  else
    let mutants := (quota + 3) / 4
    let others ← sub quota mutants
    let length ← fillLength survivors best
    let mutated ← repeatedly (mutate options best) mutants
    let fresh ← randomPopulation others length
    return survivors ++ mutated ++ fresh

/-- A mutated copy of every survivor. -/
def mutateAll (options : MutateOptions) : List Program → Guarded σ (List Program)
  | [] => pure []
  | p :: rest => do
    let p ← mutate options p
    let rest ← mutateAll options rest
    return p :: rest

/-- The children of the pairs at the same places of two lists. -/
def crossPairs : List Program → List Program → Guarded σ (List Program)
  | a :: as, b :: bs => do
    let (x, y) ← crossover a b
    let rest ← crossPairs as bs
    return x :: y :: rest
  | _, _ => pure []

/-- Bring the survivors and their mutated copies into random orders and cross them. -/
def recombine (survivors mutants : List Program) : Guarded σ (List Program) := do
  let survivors ← shuffle survivors
  let mutants ← shuffle mutants
  crossPairs survivors mutants

/-- So many programs of a population, at random. -/
def truncate (population : List Program) (size : Nat) : Guarded σ (List Program) := do
  let shuffled ← shuffle population
  return shuffled.take size

/-- The population after one with a sorted evaluation, whose first program is the best one. -/
def nextGeneration (evolve : EvolveOptions) (mutation : MutateOptions) (evaluation : Evaluation) :
    Guarded σ (List Program) := do
  let best ← item evaluation.scored 0
  let kept := cull evaluation.scored evolve.cullRatio
  let survivors ← replaceInvalids mutation kept best.program evaluation.invalid
  let mutants ← mutateAll mutation survivors
  let children ← recombine survivors mutants
  truncate children evolve.populationSize.toNat

/-! ## Guarded searches -/

/-- The draw of a first population. -/
def firstPopulation (e : Engine σ) : Guarded σ (List Program) :=
  randomPopulation e.config.evolve.populationSize.toNat
    e.config.evolve.initialProgramSize.toNat

/-- A search before its first generation. -/
def start (monitor : Monitor) (e : Engine σ) : Except Violation (State σ) := do
  let stagnation := Stagnation.start e.config.evolve.stagnationGenerations.toNat
  let (population, source) ← (firstPopulation e).run e.source
  let engine := { e with source, generation := 0, stagnation }
  return State.snapshot monitor none .initializing ⟨engine, population, [], []⟩

/-- What follows an evaluation. The end of a search has nothing to guard; the log record of a
generation is made for the first of the examples. -/
def resume (clock : Clock) (monitor : Monitor) (evaluation : Evaluation) (s : State σ) :
    Except Violation (Step σ) :=
  match evaluation.winner, evaluation.bestBaseCost? with
  | some _, _ => .ok (s.resume clock monitor evaluation)
  | none, none =>
    let s := s.log monitor (some (.allInvalid s.engine.generation s.population.length))
    let s := s.snapshot monitor evaluation .evaluating
    (advance (firstPopulation s.engine) s).map .next
  | none, some best => do
    let s := s.observe monitor best
    let _ ← item s.engine.examples 0
    let s := s.log monitor (s.engine.generationEvent? clock s.population.length evaluation)
    let s := s.snapshot monitor evaluation .evaluating
    let draws := nextGeneration s.engine.config.evolve s.engine.config.mutation evaluation
    (advance draws s).map .next

/-- One generation. A search that is cancelled or has reached its limit draws nothing more. -/
def step (clock : Clock) (monitor : Monitor) (s : State σ) : Except Violation (Step σ) :=
  if s.engine.cancelled ∨ s.engine.reachedLimit?.isSome then .ok (s.step clock monitor)
  else resume clock monitor (s.evaluate clock) s

/-- Take at most `rounds` steps to the end of a search. -/
def searchFrom (clock : Clock) (monitor : Monitor) :
    Nat → State σ → Except Violation (Option (Engine.Run σ))
  | 0, _ => .ok none
  | rounds + 1, s => do
    match ← step clock monitor s with
    | .next s => searchFrom clock monitor rounds s
    | .finished s result => return some ⟨s.engine, result, s.snapshots.reverse, s.events.reverse⟩

/-- Search, for at most `rounds` rounds. -/
def search (clock : Clock) (monitor : Monitor) (rounds : Nat) (e : Engine σ) :
    Except Violation (Option (Engine.Run σ)) := do
  let s ← start monitor e
  searchFrom clock monitor rounds s

/-! ## Phases -/

section

variable [LawfulSource σ] {options : MutateOptions}

/-- An index is drawn only where there is a survivor, and so it is in range. -/
theorem passes_fillLength (survivors : List Program) (best : Program) :
    Passes (fillLength survivors best : Guarded σ Nat)
      (TapeBreeder.fillLength survivors best) := by
  unfold fillLength TapeBreeder.fillLength
  split
  · exact passes_pure _
  · next hempty =>
    have hrange : 0 < survivors.length := by
      cases survivors with
      | nil => exact absurd rfl hempty
      | cons p rest => exact Nat.succ_pos _
    refine (passes_below hrange).bind (surely_below hrange) ?_
    intro index hindex
    have hsurvivor : survivors[index]? = some (survivors.getD index best) := by simp [hindex]
    exact Passes.of_ok (item_eq hsurvivor) (passes_pure _)

/-- The number of random programs is a difference that cannot be negative. -/
theorem passes_replaceInvalids (h : MutationKind.totalWeight options < UInt32.size)
    (survivors : List Program) (best : Program) (quota : Nat) :
    Passes (replaceInvalids options survivors best quota : Guarded σ (List Program))
      (TapeBreeder.replaceInvalids options survivors best quota) := by
  unfold replaceInvalids TapeBreeder.replaceInvalids
  split
  · exact passes_pure _
  · -- Rounded up, a quarter of something is at most all of it.
    refine Passes.of_ok (sub_eq (by omega)) ?_
    -- The phases one after another; no phase needs to know what the one before has drawn.
    refine (passes_fillLength survivors best).bind_any ?_
    intro length
    refine (passes_repeatedly (passes_mutate h best) _).bind_any ?_
    intro mutated
    refine (passes_randomPopulation _ length).bind_any ?_
    intro fresh
    exact passes_pure _

theorem passes_mutateAll (h : MutationKind.totalWeight options < UInt32.size)
    (survivors : List Program) :
    Passes (mutateAll options survivors : Guarded σ (List Program))
      (TapeBreeder.mutateAll options survivors) := by
  induction survivors with
  | nil => exact passes_pure []
  | cons p rest ih =>
    refine (passes_mutate h p).bind_any ?_
    intro mutant
    refine ih.bind_any ?_
    intro mutants
    exact passes_pure _

/-- Crossing each pair passes; rows of different lengths would stop at the shorter one. -/
theorem passes_crossPairs (as bs : List Program) :
    Passes (crossPairs as bs : Guarded σ (List Program)) (TapeBreeder.crossPairs as bs) := by
  induction as generalizing bs with
  | nil => exact passes_pure []
  | cons a as ih =>
    cases bs with
    | nil => exact passes_pure []
    | cons b bs =>
      refine (passes_crossover a b).bind_any ?_
      rintro ⟨x, y⟩
      refine (ih bs).bind_any ?_
      intro rest
      exact passes_pure _

/-- Shuffling and crossing pass whatever the rows are. -/
theorem passes_recombine (survivors mutants : List Program) :
    Passes (recombine survivors mutants : Guarded σ (List Program))
      (TapeBreeder.recombine survivors mutants) := by
  refine (passes_shuffle survivors).bind_any ?_
  intro survivors
  refine (passes_shuffle mutants).bind_any ?_
  intro mutants
  exact passes_crossPairs survivors mutants

/-- What is taken from the front is cut off without an index. -/
theorem passes_truncate (population : List Program) (size : Nat) :
    Passes (truncate population size : Guarded σ (List Program))
      (TapeBreeder.truncate population size) := by
  refine (passes_shuffle population).bind_any ?_
  intro shuffled
  exact passes_pure _

/-- Breeding passes if there is a scored program, since the best one is taken out of the row by its
index. -/
theorem passes_nextGeneration (h : MutationKind.totalWeight options < UInt32.size)
    (evolve : EvolveOptions) {evaluation : Evaluation} (hscored : evaluation.scored ≠ []) :
    Passes (nextGeneration evolve options evaluation : Guarded σ (List Program))
      (TapeBreeder.nextGeneration evolve options evaluation) := by
  rcases List.exists_cons_of_ne_nil hscored with ⟨best, rest, hsplit⟩
  have hfirst : evaluation.scored[0]? = some best := by
    rw [hsplit]
    rfl
  -- The program at index zero is the one that the plain search takes as the best.
  have hbest : evaluation.best = best.program := by
    rw [Evaluation.best, hsplit]
    rfl
  unfold TapeBreeder.nextGeneration
  rw [hbest]
  refine Passes.of_ok (item_eq hfirst) ?_
  refine (passes_replaceInvalids h _ best.program evaluation.invalid).bind_any ?_
  intro survivors
  refine (passes_mutateAll h survivors).bind_any ?_
  intro mutants
  refine (passes_recombine survivors mutants).bind_any ?_
  intro children
  exact passes_truncate children _

end

/-! ## Searches -/

variable [LawfulSource σ] {clock : Clock} {monitor : Monitor} {s : State σ}

theorem passes_firstPopulation (e : Engine σ) :
    Passes (firstPopulation e) e.firstPopulation :=
  passes_randomPopulation _ _

/-- A search starts without a violation, with the state that the plain search starts with. -/
theorem start_eq (monitor : Monitor) (e : Engine σ) :
    start monitor e = .ok (State.start monitor e) := by
  rw [start, passes_firstPopulation e e.source]
  rfl

/-- What follows an evaluation passes. Where a generation is bred, a program has been scored, or
else the population would have been drawn anew. -/
theorem resume_eq (hweights : MutationKind.totalWeight s.engine.config.mutation < UInt32.size)
    (hexamples : s.engine.examples ≠ []) (evaluation : Evaluation) :
    resume clock monitor evaluation s = .ok (s.resume clock monitor evaluation) := by
  unfold resume State.resume
  cases evaluation.winner with
  | some winner => rfl
  | none =>
    cases hbest : evaluation.bestBaseCost? with
    | none =>
      have hfirst := passes_firstPopulation s.engine
      exact congrArg (Except.map Step.next) (advance_eq hfirst _)
    | some best =>
      have hscored : evaluation.scored ≠ [] := by
        intro hnil
        rw [Evaluation.bestBaseCost?_eq_none_iff.mpr hnil] at hbest
        cases hbest
      -- The log record looks at the first example, which is there by assumption.
      rcases List.exists_cons_of_ne_nil hexamples with ⟨pair, rest, hsplit⟩
      have hfirst : (s.observe monitor best).engine.examples[0]? = some pair := by
        rw [State.engine_observe, hsplit]
        rfl
      have hnext : Passes (nextGeneration s.engine.config.evolve s.engine.config.mutation
          evaluation : Guarded σ (List Program)) _ :=
        passes_nextGeneration hweights s.engine.config.evolve hscored
      simp only [item_eq hfirst]
      exact congrArg (Except.map Step.next) (advance_eq hnext _)

variable {e : Engine σ}

/-- Every reachable state passes: its settings and its examples are those of the beginning. -/
theorem step_eq (hweights : MutationKind.totalWeight e.config.mutation < UInt32.size)
    (hexamples : e.examples ≠ []) (hs : State.Reachable clock monitor e s) :
    step clock monitor s = .ok (s.step clock monitor) := by
  rcases hs.carried with ⟨hconfig, hkept⟩
  rw [← hconfig] at hweights
  rw [← hkept] at hexamples
  unfold step
  split
  · rfl
  · next hgoes =>
    rcases not_or.mp hgoes with ⟨hcancelled, hlimit⟩
    have hlimit : s.engine.reachedLimit? = none := Option.not_isSome_iff_eq_none.mp hlimit
    rw [resume_eq hweights hexamples, State.step, if_neg hcancelled, hlimit]

/-- A run passes from every reachable state on. -/
theorem searchFrom_eq (hweights : MutationKind.totalWeight e.config.mutation < UInt32.size)
    (hexamples : e.examples ≠ []) (hs : State.Reachable clock monitor e s) (rounds : Nat) :
    searchFrom clock monitor rounds s = .ok (s.run clock monitor rounds) := by
  induction rounds generalizing s with
  | zero => rfl
  | succ rounds ih =>
    rw [searchFrom, step_eq hweights hexamples hs, State.run]
    cases hnext : s.step clock monitor with
    | next t => exact ih (hs.next hnext)
    | finished t result => rfl

end Guarded

/-- No search meets a violation, whatever is drawn and measured, whoever watches it, and whatever an
earlier search has left behind, as long as the weights of mutation fit into 32 bits and there are
examples. Its first population, the step of each of its reachable states and its run of any number
of rounds pass all of their guards, and are the same as without them. -/
theorem run_passes_guards {σ : Type} [RandomSource σ] [LawfulSource σ] (clock : Clock)
    (monitor : Monitor) (e : Engine σ)
    (hweights : MutationKind.totalWeight e.config.mutation < UInt32.size)
    (hexamples : e.examples ≠ []) :
    Guarded.start monitor e = .ok (State.start monitor e) ∧
    (∀ s, State.Reachable clock monitor e s →
      Guarded.step clock monitor s = .ok (s.step clock monitor)) ∧
    ∀ rounds, Guarded.search clock monitor rounds e = .ok (e.run clock monitor rounds) := by
  refine ⟨Guarded.start_eq monitor e, ?_, ?_⟩
  · intro s hs
    exact Guarded.step_eq hweights hexamples hs
  · intro rounds
    rw [Guarded.search, Guarded.start_eq]
    exact Guarded.searchFrom_eq hweights hexamples .start rounds

/-- The search of the stale engine breeds once and then stops, without any violation. -/
theorem run_passes_guards_stale :
    MutationKind.totalWeight Engine.stale.config.mutation < UInt32.size ∧
      Engine.stale.examples ≠ [] ∧
      ∃ r, Guarded.search .steady (.passive none) 2 Engine.stale = .ok (some r) ∧
        r.result = .error (.exhausted 1) := by
  have hweights : MutationKind.totalWeight Engine.stale.config.mutation < UInt32.size := by decide
  have hexamples : Engine.stale.examples ≠ [] := List.cons_ne_nil _ _
  rcases Engine.exists_run_stale with ⟨u, hrun, -, -⟩
  have hpasses :=
    (run_passes_guards .steady (.passive none) Engine.stale hweights hexamples).2.2 2
  rw [hrun] at hpasses
  exact ⟨hweights, hexamples, _, hpasses, rfl⟩

/-- Without any scored program there is nothing to breed from. -/
example : (Guarded.nextGeneration {} {} (.empty false) : Guarded Script (List Program)).run ⟨[]⟩ =
    .error .outOfBounds :=
  rfl

end TapeBreeder
