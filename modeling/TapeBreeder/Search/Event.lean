import TapeBreeder.Clock
import TapeBreeder.Search.Report

/-!
# The log of a search

What is worth a log record is an `Event`. Each event has a level and a wording, and a `LogFilter`
says which levels are recorded.
-/

namespace TapeBreeder

/-- The levels of log records, the most important one first. -/
inductive Level where
  | error
  | warn
  | info
  | debug
  | trace
deriving DecidableEq, Repr

/-- How far a level is from the most important one. -/
def Level.rank : Level → Nat
  | error => 0
  | warn => 1
  | info => 2
  | debug => 3
  | trace => 4

/-- The least important level that is recorded, or nothing if no level is. -/
abbrev LogFilter :=
  Option Level

/-- Whether records of a level are kept. -/
def LogFilter.admits : LogFilter → Level → Bool
  | none, _ => false
  | some least, level => level.rank ≤ least.rank

/-- What happens in a search, or in a sequence of supervised searches. -/
inductive Event where
  /-- A search was cancelled. -/
  | cancelled (generation : Nat)
  /-- A search has come to its last generation. -/
  | limitReached (limit : Nat)
  /-- A perfect program has been found. -/
  | found (generation : Nat)
  /-- No program of a generation was valid. -/
  | allInvalid (generation populationSize : Nat)
  /-- A search has become stagnant. -/
  | stagnationBegun (generation flat : Nat)
  /-- A search is not stagnant any more. -/
  | stagnationEnded (generation : Nat)
  /-- A generation has been scored, and its best program prints `output`. -/
  | scored (level : Level) (generation populationSize invalid : Nat) (cost : Charge)
      (program : Program) (output : String)
  /-- A generation has been scored, and its best program prints nothing when it is shown. -/
  | bestFailed (level : Level) (generation : Nat) (error : RunError)
  /-- A supervised search has succeeded. -/
  | succeeded (attempts : Nat)
  /-- The report of a supervised search. -/
  | success (report : Report)
  /-- A supervised search has come to its last generation. -/
  | attemptExhausted (attempts generations : Nat)
  /-- There are no more attempts. -/
  | gaveUp (attempts : Nat)
deriving DecidableEq

namespace Event

/-- The level of an event. -/
def level : Event → Level
  | cancelled .. | limitReached .. | found .. | stagnationBegun .. | stagnationEnded .. => .info
  | succeeded .. | success .. => .info
  | allInvalid .. | attemptExhausted .. | gaveUp .. => .warn
  | scored level .. | bestFailed level .. => level

/-- The wording of an event. -/
def message : Event → String
  | cancelled generation => s!"Evolution cancelled at generation {generation}"
  | limitReached limit => s!"Generation limit {limit} reached without a winner"
  | found generation => s!"Found a zero-cost program at generation {generation}"
  | allInvalid generation populationSize =>
    s!"Gen. {generation}: all {populationSize} programs inviable, regenerating population"
  | stagnationBegun generation flat =>
    s!"Gen. {generation}: best cost flat for {flat} generations, adding runtime to cost"
  | stagnationEnded generation =>
    s!"Gen. {generation}: best cost moved, dropping runtime cost"
  | scored _ generation populationSize invalid cost program output =>
    s!"Gen. {generation}: {populationSize} programs, {invalid} inviable. " ++
      s!"Min. cost {cost.amount}\n{program.render}\n{output}"
  | bestFailed _ generation error =>
    s!"Gen. {generation}: best program failed: {error.message}"
  | succeeded attempts => s!"After {attempts} tries, evolution succeeded!"
  | success report => s!"Success!\n{report.render}"
  | attemptExhausted attempts generations =>
    s!"Attempt {attempts} exhausted after {generations} generations, restarting"
  | gaveUp attempts => s!"Supervised evolution gave up after {attempts} attempts"

end Event

end TapeBreeder
