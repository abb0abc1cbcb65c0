import TapeBreeder.Binary64.Decimal
import TapeBreeder.Charge

/-!
# Configuration of a search

The settings of a search come in three groups, by what reads them: `CostOptions` for scoring,
`EvolveOptions` for the loop over generations, `MutateOptions` for mutation. Every setting has
a default.

`RunConfig.validate` checks what a search relies on; of several faults it names the first in the
order population size, cull ratio, loop probability, mutation weights, timeouts.
-/

namespace TapeBreeder

/-! ## Scoring -/

/-- How an output is compared with a target. -/
inductive CostPolicy where
  /-- By the distance of the code points, character by character. -/
  | characterDistance
  /-- By the kind of failure: no output, wrong length, wrong content. -/
  | bucketed
deriving DecidableEq, Repr

/-- What a run out of time does to a program. -/
inductive TimeoutPolicy where
  /-- The pair is charged as if nothing had been printed, and some more. -/
  | penalize
  /-- The program is invalid. -/
  | disqualify
deriving DecidableEq, Repr

/-- What each kind of failure costs. -/
structure PenaltyTable where
  /-- A run out of time. -/
  timeout : Charge := 50
  /-- No output at all. -/
  noOutput : Charge := 25
  /-- A printed character that is no ASCII letter or digit. -/
  nonAscii : Charge := 1
  /-- A character by which the output falls short of the target. -/
  tooShort : Charge := 5
  /-- A character by which the output is longer than the target. -/
  tooLong : Charge := 1
  /-- A unit of distance between code points. -/
  wrongChar : Charge := 1
  /-- An extra character around the target. -/
  extraChar : Charge := 3
  /-- A character missing around the output. -/
  missingChar : Charge := 2
  /-- A printed character that the target does not share. -/
  nonIntersection : Charge := 1
  /-- Any mismatch. -/
  notEqual : Charge := 1
deriving DecidableEq

/-- Settings of scoring. -/
structure CostOptions where
  /-- The budget of each run. -/
  timeoutMs : UInt64 := 10
  penalties : PenaltyTable := {}
  /-- Whether printed characters other than ASCII letters and digits are charged. -/
  asciiOnly : Bool := true
  /-- Whether measured runtime is added to the cost of programs that are not perfect. -/
  timeCost : Bool := false
  policy : CostPolicy := .characterDistance
  timeoutPolicy : TimeoutPolicy := .penalize
deriving DecidableEq

/-- The options for a generation: while the search is stagnant, runtime is charged. -/
def CostOptions.effective (options : CostOptions) (stagnant : Bool) : CostOptions :=
  { options with timeCost := options.timeCost || stagnant }

/-! ## Generations -/

/-- Settings of the loop over generations. -/
structure EvolveOptions where
  /-- The part of the scored programs that survives. -/
  cullRatio : Binary64 := .ofRatio false 1 2
  /-- The number of programs that a generation is cut down to. -/
  populationSize : UInt64 := 1000
  /-- The length of the programs that a search begins with. -/
  initialProgramSize : UInt64 := 8
  /-- The budget of runs that only show what a program does. -/
  timeoutMs : UInt64 := 20
  /-- The number of generations after which a search gives up, if ever. -/
  generationLimit : Option UInt64 := some 10000
  /-- The number of generations without change after which a search is stagnant. -/
  stagnationGenerations : UInt64 := 10
  /-- Whether each generation is worth an informational log record. -/
  verbose : Bool := false
deriving DecidableEq, Repr

/-! ## Mutation -/

/-- Settings of mutation. The likelihoods are weights relative to each other. -/
structure MutateOptions where
  /-- The weight of replacing a symbol. -/
  inPlace : UInt32 := 100
  /-- The weight of inserting a symbol. -/
  addition : UInt32 := 30
  /-- The weight of deleting a symbol or a pair of brackets. -/
  deletion : UInt32 := 40
  /-- The weight of changing nothing. -/
  none : UInt32 := 1
  /-- The probability that a whole loop is written instead of a symbol. -/
  loopProbability : Binary64 := .ofRatio false 1 5
deriving DecidableEq, Repr

/-! ## The whole configuration -/

/-- The settings of a search. -/
structure RunConfig where
  cost : CostOptions := {}
  evolve : EvolveOptions := {}
  mutation : MutateOptions := {}
  /-- The seed of the random draws, if they are to be repeatable. -/
  randomSeed : Option UInt64 := none
deriving DecidableEq

/-- Why a configuration cannot be used. -/
inductive ConfigError where
  | populationTooSmall
  | invalidCullRatio (ratio : Binary64)
  | invalidLoopProbability (probability : Binary64)
  | noMutationWeights
  | invalidTimeout
deriving DecidableEq, Repr

/-- The wording of a fault in a configuration. -/
def ConfigError.message : ConfigError → String
  | populationTooSmall => "Population size must be at least 2"
  | invalidCullRatio ratio => "Cull ratio must be in (0, 1], got " ++ ratio.display
  | invalidLoopProbability probability =>
    "Loop probability must be in [0, 1], got " ++ probability.display
  | noMutationWeights => "At least one mutation likelihood must be positive"
  | invalidTimeout => "Program timeout must be positive"

/-- Check a configuration. -/
def RunConfig.validate (config : RunConfig) : Except ConfigError Unit :=
  let ratio := config.evolve.cullRatio
  let probability := config.mutation.loopProbability
  let zero := Binary64.ofNat 0
  let one := Binary64.ofNat 1
  if config.evolve.populationSize < 2 then
    .error .populationTooSmall
  else if ¬(zero < ratio ∧ ratio ≤ one) then
    .error (.invalidCullRatio ratio)
  else if ¬(zero ≤ probability ∧ probability ≤ one) then
    .error (.invalidLoopProbability probability)
  else if config.mutation.inPlace = 0 ∧ config.mutation.addition = 0 ∧
      config.mutation.deletion = 0 ∧ config.mutation.none = 0 then
    .error .noMutationWeights
  else if config.cost.timeoutMs = 0 ∨ config.evolve.timeoutMs = 0 then
    .error .invalidTimeout
  else .ok ()

end TapeBreeder
