import Mathlib.Data.List.Infix
import TapeBreeder.Proofs.Cost.Bytes
import TapeBreeder.Proofs.Safety.Guarded

/-!
# Charges under guard

The two distances of an output from a target once more, with every difference of lengths and every
cut guarded, and with texts searched for in bytes. Both pass their guards for all outputs, targets
and penalties. Two of the differences stand behind no comparison of lengths: they do not go below
zero only because one text has been found within the other.

* `perExcess` — the penalty for a difference of lengths.
* `tailDistance_eq`, `lengthCharge_eq` — differences and cuts behind a comparison of lengths.
* `contentCharge_eq` — differences behind a search.
* `charges_pass_guards` — both distances are what they are without guards.
-/

namespace TapeBreeder

namespace Guarded

/-! ## Guarded charges -/

/-- The distance of what one of the two has and the other has not. -/
def tailDistance (output target : List Char) : Except Violation Charge :=
  if output.length < target.length then do
    let missing ← sub target.length output.length
    return Charge.ofNat missing * Charge.ofNat maxCell
  else do
    let extra ← behind output target.length
    return (extra.map fun c => Charge.ofNat c.toNat).sum

/-- The distance of an output from a target, in code points. -/
def distanceCharge (penalties : PenaltyTable) (output target : String) :
    Except Violation Charge := do
  let tail ← tailDistance output.toList target.toList
  return penalties.wrongChar * (alignedDistance output.toList target.toList + tail)

/-- A penalty for each character that one length is above another. -/
def perExcess (penalty : Charge) (longer shorter : Nat) : Except Violation Charge := do
  let excess ← sub longer shorter
  return penalty * Charge.ofNat excess

/-- The charge for the length of an output. -/
def lengthCharge (penalties : PenaltyTable) (output target : String) : Except Violation Charge :=
  if target.length < output.length then perExcess penalties.tooLong output.length target.length
  else perExcess penalties.tooShort target.length output.length

/-- The charge for the content of an output. Where one text is found within the other, their lengths
are not compared any more. Where neither is, the difference may stop at zero. -/
def contentCharge (penalties : PenaltyTable) (output target : String) : Except Violation Charge :=
  if bytes target <:+: bytes output then
    perExcess penalties.extraChar output.length target.length
  else if bytes output <:+: bytes target then
    perExcess penalties.missingChar target.length output.length
  else
    let shared := target.toList.countP fun c => output.toList.contains c
    .ok (penalties.nonIntersection * Charge.ofNat (output.length - shared))

/-- The distance of an output from a target, by the kind of failure. -/
def bucketCharge (penalties : PenaltyTable) (output target : String) :
    Except Violation Charge :=
  if output.toList.isEmpty then .ok penalties.noOutput
  else do
    let length ← lengthCharge penalties output target
    let content ← contentCharge penalties output target
    return length + content

/-! ## Code points -/

/-- The lengths are compared first, so the difference is taken where the target is longer, and the
cut is made where the output is not shorter. -/
theorem tailDistance_eq (output target : List Char) :
    tailDistance output target = .ok (TapeBreeder.tailDistance output target) := by
  unfold tailDistance TapeBreeder.tailDistance
  split
  · next hshort =>
    rw [sub_eq (Nat.le_of_lt hshort)]
    rfl
  · next hlong =>
    rw [behind_eq (Nat.le_of_not_lt hlong)]
    rfl

/-- Nothing but the tail can go wrong: aligned characters are compared by a distance in both
directions. -/
theorem distanceCharge_eq (penalties : PenaltyTable) (output target : String) :
    distanceCharge penalties output target =
      .ok (TapeBreeder.distanceCharge penalties output target) := by
  rw [distanceCharge, tailDistance_eq]
  rfl

/-! ## Buckets -/

/-- The guard of a difference passes where the second length is no larger than the first. -/
theorem perExcess_eq {penalty : Charge} {longer shorter : Nat} (h : shorter ≤ longer) :
    perExcess penalty longer shorter = .ok (penalty * Charge.ofNat (longer - shorter)) := by
  rw [perExcess, sub_eq h]
  rfl

/-- The comparison decides which way round the difference is taken. -/
theorem lengthCharge_eq (penalties : PenaltyTable) (output target : String) :
    lengthCharge penalties output target =
      .ok (TapeBreeder.lengthCharge penalties output.toList target.toList) := by
  unfold lengthCharge TapeBreeder.lengthCharge
  rw [String.length_toList, String.length_toList]
  split
  · next hlong => exact perExcess_eq (Nat.le_of_lt hlong)
  · next hshort => exact perExcess_eq (Nat.le_of_not_lt hshort)

/-- No comparison stands in front of the differences. A text that has been found within the other
one is no longer, which is what the guards ask for. -/
theorem contentCharge_eq (penalties : PenaltyTable) (output target : String) :
    contentCharge penalties output target =
      .ok (TapeBreeder.contentCharge penalties output.toList target.toList) := by
  unfold contentCharge TapeBreeder.contentCharge
  rw [String.length_toList, String.length_toList]
  simp only [← bytes_infix_iff_occursIn]
  -- Of the three cases, the last one takes no difference that could go below zero.
  split
  · next htarget => exact perExcess_eq (length_le_of_infix_bytes htarget)
  · split
    · next houtput => exact perExcess_eq (length_le_of_infix_bytes houtput)
    · rfl

theorem bucketCharge_eq (penalties : PenaltyTable) (output target : String) :
    bucketCharge penalties output target =
      .ok (TapeBreeder.bucketCharge penalties output target) := by
  unfold bucketCharge TapeBreeder.bucketCharge
  split
  · rfl
  · rw [lengthCharge_eq, contentCharge_eq]
    rfl

end Guarded

/-- No charge meets a violation, whatever has been printed, whatever is wanted and whatever the
penalties are. In both distances of an output from a target, each difference of lengths is taken
where it is not below zero, and each cut is made within the output; the distances are the same as
without guards. -/
theorem charges_pass_guards (penalties : PenaltyTable) (output target : String) :
    Guarded.distanceCharge penalties output target =
        .ok (distanceCharge penalties output target) ∧
      Guarded.bucketCharge penalties output target =
        .ok (bucketCharge penalties output target) :=
  ⟨Guarded.distanceCharge_eq penalties output target,
    Guarded.bucketCharge_eq penalties output target⟩

/-- `€` has more bytes than `ab` has, but it is one character, and one is missing. -/
example : Guarded.bucketCharge {} "€" "ab" = .ok (.ofNat 6) := by
  decide +kernel

end TapeBreeder
