import TapeBreeder.Program
import TapeBreeder.Random.Source

/-!
# Crossover

Two programs are crossed by exchanging what follows a random point. A program of one symbol has
nothing worth exchanging, so it is joined to the other program instead, once before it and once
behind it.

* `Program.crossAt` — the children for a given point.
* `Program.crossover` — the children for a random point.
-/

namespace TapeBreeder

namespace Program

/-- The children of two programs that exchange what follows `point`. -/
def crossAt (a b : Program) (point : Nat) : Program × Program :=
  (⟨a.symbols.take point ++ b.symbols.drop point⟩,
    ⟨b.symbols.take point ++ a.symbols.drop point⟩)

/-- The children of two programs. -/
def crossover {σ : Type} [RandomSource σ] (a b : Program) : StateM σ (Program × Program) := do
  if a.length = 1 ∨ b.length = 1 then
    return (a ++ b, b ++ a)
  else
    let point ← RandomSource.below (min a.length b.length + 1)
    return crossAt a b point

end Program

end TapeBreeder
