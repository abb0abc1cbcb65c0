import TapeBreeder.Breeding.Crossover
import TapeBreeder.Breeding.Mutation
import TapeBreeder.Population.Evaluation

/-!
# From one generation to the next

The best part of the scored programs survives. The places of invalid programs are filled with
mutated copies of the best program and with random programs. The survivors are then crossed with
mutated copies of themselves, and the children are cut down to the size of the population.

* `cull`, `replaceInvalids`, `mutateAll`, `recombine`, `truncate` — the phases.
* `nextGeneration` — all of them.
-/

namespace TapeBreeder

variable {σ : Type} [RandomSource σ]

/-- How many of `count` scored programs survive. -/
def keepCount (count : Nat) (ratio : Binary64) : Nat :=
  max ((Binary64.ofNat count).mul ratio).truncate 1

/-- The programs that survive, given the scored programs in ascending order of cost. -/
def cull (scored : List ScoredProgram) (ratio : Binary64) : List Program :=
  (scored.take (keepCount scored.length ratio)).map (·.program)

/-- The length of the random programs that fill places: that of a random survivor, or that of
the best program if none has survived, but at least one. -/
def fillLength (survivors : List Program) (best : Program) : StateM σ Nat := do
  if survivors.isEmpty then
    return max best.length 1
  else
    let index ← RandomSource.below survivors.length
    return max (survivors.getD index best).length 1

/-- Fill the places of `quota` invalid programs. A quarter of them, rounded up, are mutated
copies of the best program, the others are random programs. -/
def replaceInvalids (options : MutateOptions) (survivors : List Program) (best : Program)
    (quota : Nat) : StateM σ (List Program) := do
  if quota = 0 then
    return survivors
  else
    let mutants := (quota + 3) / 4
    let length ← fillLength survivors best
    let mutated ← repeatedly (best.mutate options) mutants
    let fresh ← randomPopulation (quota - mutants) length
    return survivors ++ mutated ++ fresh

/-- A mutated copy of every survivor. -/
def mutateAll (options : MutateOptions) : List Program → StateM σ (List Program)
  | [] => pure []
  | p :: rest => do
    let p ← p.mutate options
    let rest ← mutateAll options rest
    return p :: rest

/-- The children of the pairs at the same places of two lists. -/
def crossPairs : List Program → List Program → StateM σ (List Program)
  | a :: as, b :: bs => do
    let (x, y) ← a.crossover b
    let rest ← crossPairs as bs
    return x :: y :: rest
  | _, _ => pure []

/-- Bring the survivors and their mutated copies into random orders and cross them. -/
def recombine (survivors mutants : List Program) : StateM σ (List Program) := do
  let survivors ← shuffle survivors
  let mutants ← shuffle mutants
  crossPairs survivors mutants

/-- So many programs of a population, at random. -/
def truncate (population : List Program) (size : Nat) : StateM σ (List Program) := do
  let shuffled ← shuffle population
  return shuffled.take size

/-- The program that comes first in an evaluation. -/
def Evaluation.best (e : Evaluation) : Program :=
  (e.scored.head?.map (·.program)).getD ⟨[]⟩

/-- The population after one with a sorted evaluation. -/
def nextGeneration (evolve : EvolveOptions) (mutation : MutateOptions) (evaluation : Evaluation) :
    StateM σ (List Program) := do
  let best := evaluation.best
  let kept := cull evaluation.scored evolve.cullRatio
  let survivors ← replaceInvalids mutation kept best evaluation.invalid
  let mutants ← mutateAll mutation survivors
  let children ← recombine survivors mutants
  truncate children evolve.populationSize.toNat

end TapeBreeder
