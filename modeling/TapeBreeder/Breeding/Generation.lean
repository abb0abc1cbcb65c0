import TapeBreeder.Program
import TapeBreeder.Random.Source

/-!
# Random programs

A random program of a given length is a row of symbols and loops. A loop is only begun where at
least four symbols are missing, its body is a row of symbols that are not brackets, and it is
closed at once, so the program is balanced and loops do not nest.

* `randomProgram`, `randomPopulation` — a program, and a list of programs of one length.
-/

namespace TapeBreeder

variable {σ : Type} [RandomSource σ]

/-- A symbol of a set. -/
def randomSymbol (symbols : List Symbol) : StateM σ Symbol := do
  let index ← RandomSource.below symbols.length
  return symbols.getD index .increment

/-- A loop around a body of so many symbols, none of them a bracket. -/
def randomLoop (size : Nat) : StateM σ (List Symbol) := do
  let body ← repeatedly (randomSymbol Symbol.plain) size
  return .loopOpen :: body ++ [.loopClose]

/-- The `missing` symbols of a program that are still to be drawn. -/
def randomSymbols (missing : Nat) : StateM σ (List Symbol) :=
  if missing = 0 then pure []
  else do
    let next ← randomSymbol Symbol.starters
    if next ≠ .loopOpen then
      let rest ← randomSymbols (missing - 1)
      return next :: rest
    else if missing < 4 then
      let next ← randomSymbol Symbol.plain
      let rest ← randomSymbols (missing - 1)
      return next :: rest
    else
      let body ← RandomSource.below (missing - 2)
      let loop ← randomLoop (body + 1)
      let rest ← randomSymbols (missing - (body + 3))
      return loop ++ rest
termination_by missing

/-- A random program of a given length. -/
def randomProgram (length : Nat) : StateM σ Program := do
  let symbols ← randomSymbols length
  return ⟨symbols⟩

/-- So many random programs of one length. -/
def randomPopulation (count length : Nat) : StateM σ (List Program) :=
  repeatedly (randomProgram length) count

end TapeBreeder
