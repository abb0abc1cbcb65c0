import TapeBreeder.Cost.Score

/-!
# Evaluating a population

Every program of a population is scored. The programs with a cost are kept in population order,
the invalid ones are counted, and the first perfect program is the winner.

* `Evaluation.ofCosts` — what the costs of the programs say about a population.
* `evaluatePopulation` — score a population and sum it up.
-/

namespace TapeBreeder

/-- A program with its costs: the one it is selected by, and the one without runtime. -/
structure ScoredProgram where
  program : Program
  cost : Charge
  baseCost : Charge
deriving DecidableEq

/-- What scoring says about a population. -/
structure Evaluation where
  /-- The programs with a cost. -/
  scored : List ScoredProgram
  /-- The number of programs without one. -/
  invalid : Nat
  /-- The first program in population order that costs nothing. -/
  winner : Option Program
  /-- Whether runtime was charged. -/
  timeCost : Bool
deriving DecidableEq

namespace Evaluation

/-- Nothing has been evaluated. -/
def empty (timeCost : Bool) : Evaluation :=
  ⟨[], 0, none, timeCost⟩

/-- The lowest cost without runtime. -/
def bestBaseCost? (e : Evaluation) : Option Charge :=
  (e.scored.map (·.baseCost)).min?

/-- Put a program with its base cost and its cost before those evaluated. -/
def cons (p : Program) (base cost : Cost) (e : Evaluation) : Evaluation :=
  match base, cost with
  | .valid baseCost, .valid cost =>
    { e with
      scored := ⟨p, cost, baseCost⟩ :: e.scored
      winner := if cost = 0 then some p else e.winner }
  | _, _ => { e with invalid := e.invalid + 1 }

/-- Sum up programs with their base costs and their costs. -/
def ofCosts (timeCost : Bool) (results : List (Program × Cost × Cost)) : Evaluation :=
  results.foldr (fun result e => e.cons result.1 result.2.1 result.2.2) (empty timeCost)

/-- The evaluation with its programs in ascending order of cost, equal ones in population
order. -/
def sorted (e : Evaluation) : Evaluation :=
  { e with scored := e.scored.mergeSort fun a b => a.cost ≤ b.cost }

end Evaluation

/-- Score a population. The time measured for a program depends on its position and on the
number of symbols executed. -/
def evaluatePopulation (clock : Clock) (generation : Nat) (options : CostOptions)
    (examples : List Example) (population : List Program) : Evaluation :=
  .ofCosts options.timeCost <| population.mapIdx fun position p =>
    let base := p.baseCost clock options examples
    (p, base.cost, base.cost.withRuntime options (clock.elapsed generation position base.executed))

end TapeBreeder
