import TapeBreeder.Charge
import TapeBreeder.Program

/-!
# What a search reports

* `Report` — the program that a search has found, with what it prints for every example.
* `SupervisedReport` — the same, with the number of attempts it took.
* `Progress` — a snapshot of a search, taken once per generation and at both ends.
-/

namespace TapeBreeder

/-! ## Reports -/

/-- An input and what a program prints for it. -/
structure Sample where
  input : String
  output : String
deriving DecidableEq, Repr

/-- A program that has been found. -/
structure Report where
  program : Program
  cost : Charge
  /-- The generation that it was found in. -/
  generation : Nat
  /-- What it prints for each example. -/
  samples : List Sample
deriving DecidableEq

/-- The text of a report. -/
def Report.render (r : Report) : String :=
  let samples := r.samples.map fun sample => "\n" ++ sample.input ++ ":" ++ sample.output
  s!"Generation {r.generation}:\n\t{r.program.render}\ngiving:" ++ String.join samples

/-- A program that has been found after some attempts. -/
structure SupervisedReport where
  /-- The number of searches begun, with the successful one. -/
  attempts : Nat
  report : Report
deriving DecidableEq

/-! ## Progress -/

/-- Where a search stands. -/
inductive Phase where
  /-- The first population has been drawn. -/
  | initializing
  /-- A generation has been scored. -/
  | evaluating
  /-- A perfect program has been found. -/
  | complete
  /-- The search has given up or has been cancelled. -/
  | stopped
deriving DecidableEq, Repr

/-- A snapshot of a search. -/
structure Progress where
  generation : Nat
  generationLimit : Option UInt64
  /-- The number of programs in the population. -/
  populationSize : Nat
  /-- The number of those that were invalid. -/
  invalidCount : Nat
  /-- The lowest cost, if any program was valid. -/
  bestCost : Option Charge
  /-- The first program with the lowest cost. -/
  bestProgram : Option Program
  /-- The lowest cost without runtime. -/
  bestBaseCost : Option Charge
  /-- Whether runtime was charged in this generation. -/
  timeCost : Bool
  /-- The number of generations in a row without a change of the best cost. -/
  flatGenerations : Nat
  /-- Whether runtime will be charged in the next generation because of that. -/
  stagnant : Bool
  phase : Phase
deriving DecidableEq

end TapeBreeder
