import TapeBreeder.Charge

/-!
# Costs

The cost of a program is what it pays in all, or the verdict that it cannot be scored. Lower is
better, a cost of zero is perfect, and an invalid program is worse than every other one.
-/

namespace TapeBreeder

/-- What a program is worth. -/
inductive Cost where
  /-- It ran on every example and pays so much. -/
  | valid (total : Charge)
  /-- It has no cost and must be replaced. -/
  | invalid
deriving DecidableEq

namespace Cost

/-- What a valid program pays. -/
def total? : Cost → Option Charge
  | valid total => some total
  | invalid => none

/-- Whether nothing is to be paid. -/
def isPerfect (c : Cost) : Bool :=
  c == valid 0

/-- Whether the program has no cost. -/
def isInvalid (c : Cost) : Bool :=
  c == invalid

/-- The text of a cost. -/
def render : Cost → String
  | valid total => toString total.amount
  | invalid => "invalid"

/-- Whether one cost is at most another; an invalid one is above all others. -/
def le : Cost → Cost → Bool
  | valid a, valid b => a ≤ b
  | invalid, valid _ => false
  | _, invalid => true

instance : LE Cost :=
  ⟨fun a b => a.le b = true⟩

instance : LT Cost :=
  ⟨fun a b => b.le a = false⟩

instance (a b : Cost) : Decidable (a ≤ b) :=
  inferInstanceAs (Decidable (a.le b = true))

instance (a b : Cost) : Decidable (a < b) :=
  inferInstanceAs (Decidable (b.le a = false))

/-- Costs in ascending order. -/
def sort (costs : List Cost) : List Cost :=
  costs.mergeSort le

end Cost

end TapeBreeder
