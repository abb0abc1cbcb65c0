import TapeBreeder.Config

/-!
# What one output costs

A program is charged for each pair of an output and the target it should have been. Nothing is
charged for the target itself. Otherwise the charge is made up of the flat charge for a
mismatch, the distance of the output from the target under one of two policies, and, if asked
for, a charge for characters that are no ASCII letters or digits.

* `distanceCharge` — distance by code points, character by character.
* `bucketCharge` — distance by the kind of failure.
* `pairCharge`, `timeoutCharge` — the charge for an output, and for a run out of time.
-/

namespace TapeBreeder

/-! ## Distance of code points -/

/-- The largest value that a cell can hold. -/
def maxCell : Nat :=
  255

/-- The distance of two natural numbers. -/
def absDiff (m n : Nat) : Nat :=
  (m - n) + (n - m)

/-- The distances of the characters that stand at the same places. -/
def alignedDistance (output target : List Char) : Charge :=
  (List.zipWith (fun o t => Charge.ofNat (absDiff o.toNat t.toNat)) output target).sum

/-- The distance of what one of the two has and the other has not: each missing character is as
far as a character can be, each extra one as far as its code point. -/
def tailDistance (output target : List Char) : Charge :=
  if output.length < target.length then
    Charge.ofNat (target.length - output.length) * Charge.ofNat maxCell
  else ((output.drop target.length).map fun c => Charge.ofNat c.toNat).sum

/-- The distance of an output from a target, in code points. -/
def distanceCharge (penalties : PenaltyTable) (output target : String) : Charge :=
  penalties.wrongChar *
    (alignedDistance output.toList target.toList + tailDistance output.toList target.toList)

/-! ## Buckets -/

/-- Whether one list of characters occurs within another. -/
def occursIn (needle : List Char) : List Char → Bool
  | [] => needle.isEmpty
  | c :: rest => needle.isPrefixOf (c :: rest) || occursIn needle rest

/-- The charge for the length of an output. -/
def lengthCharge (penalties : PenaltyTable) (output target : List Char) : Charge :=
  if target.length < output.length then
    penalties.tooLong * Charge.ofNat (output.length - target.length)
  else penalties.tooShort * Charge.ofNat (target.length - output.length)

/-- The charge for the content of an output: for what is around the target, for what is missing
around the output, or else for the characters that the target does not account for. -/
def contentCharge (penalties : PenaltyTable) (output target : List Char) : Charge :=
  if occursIn target output then
    penalties.extraChar * Charge.ofNat (output.length - target.length)
  else if occursIn output target then
    penalties.missingChar * Charge.ofNat (target.length - output.length)
  else
    let shared := target.countP fun c => output.contains c
    penalties.nonIntersection * Charge.ofNat (output.length - shared)

/-- The distance of an output from a target, by the kind of failure. -/
def bucketCharge (penalties : PenaltyTable) (output target : String) : Charge :=
  if output.toList.isEmpty then penalties.noOutput
  else
    lengthCharge penalties output.toList target.toList +
      contentCharge penalties output.toList target.toList

/-! ## Pairs -/

/-- The charge for printed characters that are no ASCII letters or digits. -/
def nonAsciiCharge (penalties : PenaltyTable) (output : String) : Charge :=
  Charge.ofNat (output.toList.countP fun c => !c.isAlphanum) * penalties.nonAscii

/-- The distance of an output from a target under a policy. -/
def policyCharge (options : CostOptions) (output target : String) : Charge :=
  match options.policy with
  | .characterDistance => distanceCharge options.penalties output target
  | .bucketed => bucketCharge options.penalties output target

/-- The charge for an output. -/
def pairCharge (options : CostOptions) (output target : String) : Charge :=
  if output = target then 0
  else
    let mismatch := options.penalties.notEqual + policyCharge options output target
    if options.asciiOnly then mismatch + nonAsciiCharge options.penalties output else mismatch

/-- The charge for a run out of time: that of no output, and the penalty for the timeout. -/
def timeoutCharge (options : CostOptions) (target : String) : Charge :=
  pairCharge options "" target + options.penalties.timeout

end TapeBreeder
