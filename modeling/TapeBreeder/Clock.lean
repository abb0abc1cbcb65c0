import TapeBreeder.Machine

/-!
# Time

Budgets are given in milliseconds and measured runtimes are added to costs, but a machine only
counts symbols. A `Clock` relates the two. Everything that depends on time takes a clock, so a
statement about all clocks is a statement about all measured times.

* `Clock` — how many symbols fit into a budget, and how long a scored program took.
* `Clock.steady` — a machine that executes ten thousand symbols in a millisecond.
* `Program.evaluate` — a run with its budget in milliseconds.
-/

namespace TapeBreeder

/-- How execution and time go together. -/
structure Clock where
  /-- The number of symbols that can be executed in so many milliseconds. -/
  symbolsWithin : UInt64 → Nat
  /-- The nanoseconds measured for executing `symbols` symbols, by the program at `position` of
  the population of a generation. -/
  elapsed : (generation position symbols : Nat) → Nat
  /-- A larger budget admits no fewer symbols. -/
  symbolsWithin_mono : ∀ {a b : UInt64}, a ≤ b → symbolsWithin a ≤ symbolsWithin b

namespace Clock

/-- A clock of a machine that takes a tenth of a microsecond for each symbol. -/
def steady : Clock where
  symbolsWithin milliseconds := 10000 * milliseconds.toNat
  elapsed _ _ symbols := 100 * symbols
  symbolsWithin_mono h := Nat.mul_le_mul_left 10000 (UInt64.le_iff_toNat_le.mp h)

end Clock

/-! ## Runs with a deadline -/

/-- Why a program has no output. -/
inductive RunError where
  /-- Its brackets are at fault. -/
  | brackets (fault : BracketError)
  /-- It did not halt within so many milliseconds. -/
  | timeout (milliseconds : UInt64)
deriving DecidableEq, Repr

namespace RunError

/-- Whether the program is malformed, rather than slow. -/
def isMalformed : RunError → Bool
  | brackets _ => true
  | timeout _ => false

/-- The wording of the error. -/
def message : RunError → String
  | brackets fault => fault.message
  | timeout milliseconds => s!"Program timed out after {milliseconds} ms"

end RunError

/-- What the end of a run means when its budget was `milliseconds`. -/
def Outcome.answer (milliseconds : UInt64) : Outcome → Except RunError String
  | halted text => .ok text
  | failed fault => .error (.brackets fault)
  | outOfBudget => .error (.timeout milliseconds)

/-- The output of a program within so many milliseconds. -/
def Program.evaluate (clock : Clock) (p : Program) (input : String) (milliseconds : UInt64) :
    Except RunError String :=
  (p.run input (clock.symbolsWithin milliseconds)).outcome.answer milliseconds

end TapeBreeder
