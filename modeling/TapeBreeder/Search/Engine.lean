import TapeBreeder.Population.Selection
import TapeBreeder.Population.Stagnation
import TapeBreeder.Search.Event

/-!
# The search engine

A search begins with a random population and goes from generation to generation until a perfect
program turns up, the generation limit is reached, or the search is cancelled. Each generation
is scored; if none of its programs is valid, a new population is drawn, and otherwise the next
one is bred from it.

The search is a state machine: `State` is a search before a generation, `State.step` is what
happens with it, `Engine.run` takes steps until the search is finished. A search without a limit
may go on for ever, so a run is given a number of rounds that it may take.

* `Engine.create` — an engine for a configuration and examples.
* `Engine.run` — a search; an engine can be run again, and its draws and its cancellation flag
  go on while its generation and its stagnation start anew.
* `Monitor` — what watches a search: which log records it wants, and when it cancels.
-/

namespace TapeBreeder

/-! ## Engines -/

/-- Why a search ends without a program. -/
inductive SearchError where
  | invalidConfig (fault : ConfigError)
  | mismatchedExamples (inputs targets : Nat)
  | noExamples
  | exhausted (generations : Nat)
  | retriesExhausted (attempts : Nat)
  | cancelled
deriving DecidableEq, Repr

/-- The wording of the end of a search. -/
def SearchError.message : SearchError → String
  | invalidConfig fault => s!"Invalid run configuration: {fault.message}"
  | mismatchedExamples inputs targets => s!"Got {inputs} inputs but {targets} targets"
  | noExamples => "At least one input/target pair is required"
  | exhausted generations => s!"No zero-cost program after {generations} generations"
  | retriesExhausted attempts => s!"No zero-cost program after {attempts} attempts"
  | cancelled => "Evolution cancelled"

/-- What a search needs and what it changes. -/
structure Engine (σ : Type) where
  config : RunConfig
  examples : List Example
  source : σ
  generation : Nat
  stagnation : Stagnation
  cancelled : Bool

/-- What watches a search. -/
structure Monitor where
  /-- The log records that are kept. -/
  log : LogFilter
  /-- Whether the search is cancelled when the newest snapshot, the first of the list, is
  taken. -/
  cancels : List Progress → Bool

/-- Keep some log records and never cancel. -/
def Monitor.passive (log : LogFilter) : Monitor :=
  ⟨log, fun _ => false⟩

namespace Engine

variable {σ : Type}

/-- An engine for parallel inputs and targets. The configuration is checked first, then that
there are as many targets as inputs, then that there are any. A configuration without a seed
takes `entropy` for one. -/
def create [SeededSource σ] (entropy : UInt64) (config : RunConfig) (inputs targets : List String) :
    Except SearchError (Engine σ) :=
  match config.validate with
  | .error fault => .error (.invalidConfig fault)
  | .ok () =>
    if inputs.length ≠ targets.length then
      .error (.mismatchedExamples inputs.length targets.length)
    else if inputs.isEmpty then
      .error .noExamples
    else
      .ok {
        config
        examples := Example.ofLists inputs targets
        source := SeededSource.ofSeed (config.randomSeed.getD entropy)
        generation := 0
        stagnation := .start config.evolve.stagnationGenerations.toNat
        cancelled := false }

/-- Make some draws. -/
def draw {α : Type} (e : Engine σ) (draws : StateM σ α) : α × Engine σ :=
  let (result, source) := draws.run e.source
  (result, { e with source })

/-- The draw of a first population. -/
def firstPopulation [RandomSource σ] (e : Engine σ) : StateM σ (List Program) :=
  randomPopulation e.config.evolve.populationSize.toNat
    e.config.evolve.initialProgramSize.toNat

/-- The scoring settings of the next generation. -/
def costOptions (e : Engine σ) : CostOptions :=
  e.config.cost.effective e.stagnation.isStagnant

/-- The generation limit, if it has been reached. -/
def reachedLimit? (e : Engine σ) : Option Nat :=
  (e.config.evolve.generationLimit.map UInt64.toNat).filter (· ≤ e.generation)

/-- The level at which each generation is logged. -/
def generationLevel (e : Engine σ) : Level :=
  if e.config.evolve.verbose then .info else .debug

/-- A snapshot. -/
def progress (e : Engine σ) (populationSize : Nat) (evaluation : Option Evaluation)
    (phase : Phase) : Progress :=
  let best := evaluation.bind (·.scored.head?)
  { generation := e.generation
    generationLimit := e.config.evolve.generationLimit
    populationSize
    invalidCount := (evaluation.map (·.invalid)).getD 0
    bestCost := best.map (·.cost)
    bestProgram := best.map (·.program)
    bestBaseCost := evaluation.bind (·.bestBaseCost?)
    timeCost := (evaluation.map (·.timeCost)).getD false
    flatGenerations := e.stagnation.flatGenerations
    stagnant := e.stagnation.isStagnant
    phase }

/-- What a program prints for one input, or the error in angle brackets. -/
def sample (clock : Clock) (e : Engine σ) (p : Program) (input : String) : Sample :=
  match p.evaluate clock input e.config.evolve.timeoutMs with
  | .ok output => ⟨input, output⟩
  | .error error => ⟨input, "<" ++ error.message ++ ">"⟩

/-- The report on a program that has been found. -/
def report (clock : Clock) (e : Engine σ) (winner : Program) : Report where
  program := winner
  cost := 0
  generation := e.generation
  samples := e.examples.map fun pair => e.sample clock winner pair.input

/-- The log record of a scored generation: its best program is run on the first input. -/
def generationEvent? (clock : Clock) (e : Engine σ) (populationSize : Nat)
    (evaluation : Evaluation) : Option Event := do
  let best ← evaluation.scored.head?
  let pair ← e.examples.head?
  match best.program.evaluate clock pair.input e.config.evolve.timeoutMs with
  | .ok output =>
    return .scored e.generationLevel e.generation populationSize evaluation.invalid best.cost
      best.program output
  | .error error => return .bestFailed e.generationLevel e.generation error

/-- The log record of a change into stagnation or out of it. -/
def stagnationEvent? (generation : Nat) (before after : Stagnation) : Option Event :=
  if after.isStagnant && !before.isStagnant then
    some (.stagnationBegun generation after.flatGenerations)
  else if before.isStagnant && !after.isStagnant then
    some (.stagnationEnded generation)
  else none

end Engine

/-! ## The state machine -/

/-- A search before a generation, with the snapshots and log records so far, the newest ones
first. -/
structure State (σ : Type) where
  engine : Engine σ
  population : List Program
  snapshots : List Progress
  events : List Event

/-- What a step leads to. -/
inductive Step (σ : Type) where
  /-- The next generation. -/
  | next (state : State σ)
  /-- The end of the search. -/
  | finished (state : State σ) (result : Except SearchError Report)

namespace State

variable {σ : Type}

/-- Log an event, if there is one and it is to be kept. -/
def log (monitor : Monitor) (event : Option Event) (s : State σ) : State σ :=
  { s with events := (event.filter (monitor.log.admits ·.level)).toList ++ s.events }

/-- Take a snapshot; whoever watches may cancel the search. -/
def snapshot (monitor : Monitor) (evaluation : Option Evaluation) (phase : Phase) (s : State σ) :
    State σ :=
  let snapshots := s.engine.progress s.population.length evaluation phase :: s.snapshots
  { s with
    snapshots
    engine := { s.engine with cancelled := s.engine.cancelled || monitor.cancels snapshots } }

/-- Go on to the next generation with a population that is to be drawn. -/
def advance (draws : StateM σ (List Program)) (s : State σ) : State σ :=
  let (population, engine) := s.engine.draw draws
  { s with population, engine := { engine with generation := engine.generation + 1 } }

/-- Take note of the best cost of the generation. -/
def observe (monitor : Monitor) (best : Charge) (s : State σ) : State σ :=
  let stagnation := s.engine.stagnation.observe best
  let event := Engine.stagnationEvent? s.engine.generation s.engine.stagnation stagnation
  { s with engine := { s.engine with stagnation } }.log monitor event

variable [RandomSource σ]

/-- A search before its first generation. -/
def start (monitor : Monitor) (e : Engine σ) : State σ :=
  let stagnation := Stagnation.start e.config.evolve.stagnationGenerations.toNat
  let e := { e with generation := 0, stagnation }
  let (population, engine) := e.draw e.firstPopulation
  snapshot monitor none .initializing ⟨engine, population, [], []⟩

/-- The sorted evaluation of the population. -/
def evaluate (clock : Clock) (s : State σ) : Evaluation :=
  (evaluatePopulation clock s.engine.generation s.engine.costOptions s.engine.examples
    s.population).sorted

/-- What follows an evaluation: the end of the search if there is a winner, a new population if
there is nothing to breed from, or else the next generation. -/
def resume (clock : Clock) (monitor : Monitor) (evaluation : Evaluation) (s : State σ) : Step σ :=
  match evaluation.winner, evaluation.bestBaseCost? with
  | some winner, _ =>
    .finished
      ((s.log monitor (some (.found s.engine.generation))).snapshot monitor evaluation .complete)
      (.ok (s.engine.report clock winner))
  | none, none =>
    .next <|
      ((s.log monitor (some (.allInvalid s.engine.generation s.population.length))).snapshot
        monitor evaluation .evaluating).advance s.engine.firstPopulation
  | none, some best =>
    let s := s.observe monitor best
    let s := s.log monitor (s.engine.generationEvent? clock s.population.length evaluation)
    let s := s.snapshot monitor evaluation .evaluating
    .next <| s.advance <|
      nextGeneration s.engine.config.evolve s.engine.config.mutation evaluation

/-- One generation: stop if the search is cancelled or has reached its limit, and otherwise
evaluate the population. -/
def step (clock : Clock) (monitor : Monitor) (s : State σ) : Step σ :=
  if s.engine.cancelled then
    .finished
      ((s.log monitor (some (.cancelled s.engine.generation))).snapshot monitor none .stopped)
      (.error .cancelled)
  else
    match s.engine.reachedLimit? with
    | some limit =>
      .finished
        ((s.log monitor (some (.limitReached limit))).snapshot monitor none .stopped)
        (.error (.exhausted s.engine.generation))
    | none => s.resume clock monitor (s.evaluate clock)

end State

/-! ## Runs -/

/-- A finished search: the engine after it, its result, and its snapshots and log records in
order. -/
structure Engine.Run (σ : Type) where
  engine : Engine σ
  result : Except SearchError Report
  snapshots : List Progress
  events : List Event

/-- Take at most `rounds` steps to the end of a search. -/
def State.run {σ : Type} [RandomSource σ] (clock : Clock) (monitor : Monitor) :
    Nat → State σ → Option (Engine.Run σ)
  | 0, _ => none
  | rounds + 1, s =>
    match s.step clock monitor with
    | .next s => s.run clock monitor rounds
    | .finished s result => some ⟨s.engine, result, s.snapshots.reverse, s.events.reverse⟩

/-- Search, for at most `rounds` rounds. -/
def Engine.run {σ : Type} [RandomSource σ] (clock : Clock) (monitor : Monitor) (rounds : Nat)
    (e : Engine σ) : Option (Engine.Run σ) :=
  (State.start monitor e).run clock monitor rounds

end TapeBreeder
