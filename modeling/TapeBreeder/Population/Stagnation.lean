import TapeBreeder.Charge

/-!
# Stagnation

A search is stagnant once its best cost has not changed for a number of generations, and until
it changes again, in either direction.

* `Stagnation.observe` — take note of the best cost of a generation.
* `Stagnation.note` — the same, with the answer whether the search is stagnant.
-/

namespace TapeBreeder

/-- What is known about the best costs so far. -/
structure Stagnation where
  /-- The number of generations without change that make a search stagnant. -/
  threshold : Nat
  /-- The best cost of the last generation that had one. -/
  lastBest : Option Charge
  /-- The number of generations in a row that have not changed it. -/
  flatGenerations : Nat
  isStagnant : Bool
deriving DecidableEq

namespace Stagnation

/-- Nothing is known yet. -/
def start (threshold : Nat) : Stagnation :=
  ⟨threshold, none, 0, false⟩

/-- Take note of the best cost of a generation. -/
def observe (s : Stagnation) (best : Charge) : Stagnation :=
  if s.lastBest = some best then
    let flat := s.flatGenerations + 1
    { s with flatGenerations := flat, isStagnant := s.isStagnant || s.threshold ≤ flat }
  else { s with lastBest := some best, flatGenerations := 0, isStagnant := false }

/-- Take note of the best cost of a generation, and answer whether the search is stagnant. -/
def note (best : Charge) : StateM Stagnation Bool := do
  modify (·.observe best)
  return (← get).isStagnant

end Stagnation

end TapeBreeder
