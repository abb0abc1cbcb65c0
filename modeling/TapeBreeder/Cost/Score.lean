import TapeBreeder.Clock
import TapeBreeder.Cost
import TapeBreeder.Cost.Pair

/-!
# Scoring a program

A program is scored by running it on the input of every example. The charges of the pairs add
up to the base cost. A program that meets a bracket it cannot follow is invalid, as is one that
runs out of time when the options say so; scoring then stops.

* `Program.baseCost` — the base cost, and how many symbols were executed for it.
* `Cost.withRuntime` — the cost with measured runtime, which never touches a perfect program.
* `Program.cost` — the two together.
-/

namespace TapeBreeder

/-- An input and the output that is wanted for it. -/
structure Example where
  input : String
  target : String
deriving DecidableEq, Repr

/-- The examples of two parallel lists. -/
def Example.ofLists (inputs targets : List String) : List Example :=
  List.zipWith Example.mk inputs targets

/-- The charge for how a run ended, unless that makes the program invalid. -/
def Outcome.charge? (options : CostOptions) (target : String) : Outcome → Option Charge
  | halted output => some (pairCharge options output target)
  | failed _ => none
  | outOfBudget =>
    match options.timeoutPolicy with
    | .penalize => some (timeoutCharge options target)
    | .disqualify => none

/-- A cost, and the number of symbols that were executed to find it. -/
structure Scored where
  cost : Cost
  executed : Nat
deriving DecidableEq

namespace Program

/-- Score a program on the examples that are left, having a cost so far. -/
def scoreFrom (clock : Clock) (options : CostOptions) (p : Program) (total : Charge)
    (executed : Nat) : List Example → Scored
  | [] => ⟨.valid total, executed⟩
  | pair :: rest =>
    let budget := clock.symbolsWithin options.timeoutMs
    let run := p.run pair.input budget
    let executed := executed + (budget - run.unspent)
    match run.outcome.charge? options pair.target with
    | none => ⟨.invalid, executed⟩
    | some charge => scoreFrom clock options p (total + charge) executed rest

/-- The cost of a program without runtime. A program that cannot be loaded is invalid even
without examples. -/
def baseCost (clock : Clock) (options : CostOptions) (examples : List Example) (p : Program) :
    Scored :=
  match p.load with
  | .error _ => ⟨.invalid, 0⟩
  | .ok _ => scoreFrom clock options p 0 0 examples

end Program

/-- Add measured runtime, in whole milliseconds, to a cost that is not perfect. -/
def Cost.withRuntime (options : CostOptions) (nanoseconds : Nat) : Cost → Cost
  | valid total =>
    if options.timeCost ∧ 0 < total then valid (total + Charge.ofNat (nanoseconds / 1000000))
    else valid total
  | invalid => invalid

/-- The cost of a program by itself. -/
def Program.cost (clock : Clock) (options : CostOptions) (examples : List Example)
    (p : Program) : Cost :=
  let base := p.baseCost clock options examples
  base.cost.withRuntime options (clock.elapsed 0 0 base.executed)

end TapeBreeder
