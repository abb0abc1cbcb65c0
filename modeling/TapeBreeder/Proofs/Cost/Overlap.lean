import TapeBreeder.Proofs.Cost.Exact

/-!
# Outputs that overlap their targets

Where neither of output and target occurs within the other, the content of the output is to be
charged by the character: for each one that does not occur in the target. The charge gets at their
number from the other side, as the length of the output less the characters of the target that occur
in the output. Characters that are repeated in one of the two texts make a difference.

* `occursIn_iff_isInfix` — the search for one text within another finds it if it is there.
* `strayCount`, `occurrences` — the number that is to be charged for, and what is counted instead.
* `occurrences_comm` — characters that are repeated as often in both texts make no difference.
* `overlap_charged_iff` — what is charged, and exactly where it is what is to be charged.
* `overlap_miscounts_repeated` — a repeated character hides a wrong one, or passes for one.
-/

namespace TapeBreeder

/-! ## Texts within texts -/

/-- The search for a text within another one is a search at each of its ends, so it finds the
infixes. -/
theorem occursIn_iff_isInfix {needle text : List Char} :
    occursIn needle text = true ↔ needle <:+: text := by
  induction text with
  | nil => rw [occursIn, List.isEmpty_iff, List.infix_nil]
  | cons c rest ih =>
    rw [occursIn, Bool.or_eq_true, List.isPrefixOf_iff_prefix, ih, List.infix_cons_iff]

/-! ## Characters in common -/

/-- The number of characters of an output that do not occur in the target. -/
def strayCount (output target : List Char) : Nat :=
  output.countP fun c => !target.contains c

/-- The number of characters of one text that occur in another. -/
def occurrences (text other : List Char) : Nat :=
  text.countP fun c => other.contains c

variable {output target : List Char}

theorem occurrences_add_strayCount : occurrences output target + strayCount output target =
    output.length := by
  have hsplit := List.length_eq_countP_add_countP (l := output) fun c => target.contains c
  unfold occurrences strayCount
  rw [hsplit]
  simp only [Bool.not_eq_true, Bool.decide_eq_false]

/-- If each character in common is repeated as often in both texts, these are as many on either
side. -/
theorem occurrences_comm
    (h : ∀ c ∈ output, c ∈ target → output.count c = target.count c) :
    occurrences target output = occurrences output target := by
  -- The characters in common are the same ones with the same counts, seen from either side.
  have hperm : (target.filter fun c => output.contains c).Perm
      (output.filter fun c => target.contains c) := by
    rw [List.perm_iff_count]
    intro c
    by_cases houtput : c ∈ output
    · by_cases htarget : c ∈ target
      · rw [List.count_filter (by simpa using houtput), List.count_filter (by simpa using htarget)]
        exact (h c houtput htarget).symm
      · rw [List.count_eq_zero.mpr (by simp [htarget]), List.count_eq_zero.mpr (by simp [htarget])]
    · rw [List.count_eq_zero.mpr (by simp [houtput]), List.count_eq_zero.mpr (by simp [houtput])]
  unfold occurrences
  rw [List.countP_eq_length_filter, List.countP_eq_length_filter]
  exact hperm.length_eq

/-- The number that is charged for is the one that is to be charged for if the target takes as many
characters off the output, which may be all of them, as occur in the target. -/
theorem sub_occurrences_eq_strayCount_iff :
    output.length - occurrences target output = strayCount output target ↔
      min (occurrences target output) output.length = occurrences output target := by
  have hsplit := @occurrences_add_strayCount output target
  omega

/-! ## Charges -/

/-- If neither text lies within the other, the content is charged by characters that the two do not
share. -/
theorem Exact.content_of_overlap (penalties : PenaltyTable) (houtput : ¬ output <:+: target)
    (htarget : ¬ target <:+: output) :
    Exact.content penalties output target =
      penalties.nonIntersection.amount * (output.length - occurrences target output) := by
  rw [← occursIn_iff_isInfix] at houtput htarget
  unfold content
  rw [if_neg htarget, if_neg houtput]
  rfl

/-- An output that does not lie within the target is not empty, so it is not charged as missing. -/
theorem Exact.bucket_of_overlap (penalties : PenaltyTable) {output target : String}
    (houtput : ¬ output.toList <:+: target.toList) :
    Exact.bucket penalties output target =
      Exact.length penalties output.toList target.toList +
        Exact.content penalties output.toList target.toList := by
  have hprinted : ¬ output.toList.isEmpty = true := by
    intro hempty
    rw [List.isEmpty_iff.mp hempty] at houtput
    exact houtput List.nil_infix
  unfold bucket
  rw [if_neg hprinted]

/-- An output and a target of which neither occurs within the other, so that neither is empty, are
charged for the length of the output and for its content, and the sum is stopped once at the largest
number of 64 bits. The content is charged by the length of the output less the characters of the
target that occur in the output. It is charged by the characters of the output that do not occur in
the target exactly if these are free, or if the target has as many characters in common with the
output, up to the length of the output, as the output has with the target; and so it is where each
character in common is repeated as often in both. -/
theorem overlap_charged_iff (penalties : PenaltyTable) (output target : String)
    (houtput : ¬ output.toList <:+: target.toList)
    (htarget : ¬ target.toList <:+: output.toList) :
    let length := Exact.length penalties output.toList target.toList
    let content := Exact.bucket penalties output target - length
    let due := penalties.nonIntersection.amount * strayCount output.toList target.toList
    lengthCharge penalties output.toList target.toList = Charge.ofNat length ∧
      (bucketCharge penalties output target).amount = min (2 ^ 64 - 1) (length + content) ∧
      content = penalties.nonIntersection.amount *
        (output.toList.length - occurrences target.toList output.toList) ∧
      (content = due ↔ penalties.nonIntersection.amount = 0 ∨
        min (occurrences target.toList output.toList) output.toList.length =
          occurrences output.toList target.toList) ∧
      ((∀ c ∈ output.toList, c ∈ target.toList →
        output.toList.count c = target.toList.count c) → content = due) := by
  intro length content due
  have hbucket : Exact.bucket penalties output target =
      length + Exact.content penalties output.toList target.toList :=
    Exact.bucket_of_overlap penalties houtput
  have hcontent : content = penalties.nonIntersection.amount *
      (output.toList.length - occurrences target.toList output.toList) := by
    rw [← Exact.content_of_overlap penalties houtput htarget]
    omega
  -- What is charged and what is due are multiples of one penalty, so they agree if it is zero or if
  -- the two counts agree.
  have hiff : content = due ↔ penalties.nonIntersection.amount = 0 ∨
      min (occurrences target.toList output.toList) output.toList.length =
        occurrences output.toList target.toList := by
    rw [hcontent, mul_eq_mul_left_iff, sub_occurrences_eq_strayCount_iff, or_comm]
  refine ⟨lengthCharge_eq penalties _ _, ?_, hcontent, hiff, ?_⟩
  · have hsum : length + content = Exact.bucket penalties output target := by omega
    rw [hsum, bucketCharge_eq, Charge.amount_ofNat, Nat.min_comm]
    rfl
  · intro hcounts
    -- Equal counts give equally many characters in common, and there are never more of them than
    -- the output has characters.
    have hcomm := occurrences_comm hcounts
    have hsplit := @occurrences_add_strayCount output.toList target.toList
    apply hiff.mpr
    right
    omega

/-- Two characters of three are in common, none of them repeated, and the third one is charged. -/
theorem overlap_charged_iff_permuted :
    ¬ "cxa".toList <:+: "abc".toList ∧ ¬ "abc".toList <:+: "cxa".toList ∧
      (bucketCharge {} "cxa" "abc").amount = 1 ∧
      Exact.bucket {} "cxa" "abc" - Exact.length {} "cxa".toList "abc".toList =
        1 * strayCount "cxa".toList "abc".toList ∧
      strayCount "cxa".toList "abc".toList = 1 := by
  have houtput : ¬ "cxa".toList <:+: "abc".toList := by decide
  have htarget : ¬ "abc".toList <:+: "cxa".toList := by decide
  have hcounts : ∀ c ∈ "cxa".toList, c ∈ "abc".toList →
      "cxa".toList.count c = "abc".toList.count c := by
    intro c houtput htarget
    rw [List.count_eq_one_of_mem (by decide) houtput, List.count_eq_one_of_mem (by decide) htarget]
  rcases overlap_charged_iff {} "cxa" "abc" houtput htarget with ⟨-, hcharge, -, -, hdue⟩
  exact ⟨houtput, htarget, hcharge, hdue hcounts, by decide⟩

/-- Settings that tell outputs apart by the kind of failure. -/
def CostOptions.coarse : CostOptions where
  policy := .bucketed

/-- The second character of `cx` does not occur in `cc`, of which both characters occur in `cx`:
nothing is charged for the content where one character is to be charged. It is the other way round
with the two texts exchanged. A program that prints `cx` instead of `cc` pays for the mismatch
alone. -/
theorem overlap_miscounts_repeated :
    ¬ "cx".toList <:+: "cc".toList ∧ ¬ "cc".toList <:+: "cx".toList ∧
      (bucketCharge {} "cx" "cc").amount - (lengthCharge {} "cx".toList "cc".toList).amount = 0 ∧
      ({} : PenaltyTable).nonIntersection.amount * strayCount "cx".toList "cc".toList = 1 ∧
      (bucketCharge {} "cc" "cx").amount - (lengthCharge {} "cc".toList "cx".toList).amount = 1 ∧
      ({} : PenaltyTable).nonIntersection.amount * strayCount "cc".toList "cx".toList = 0 ∧
      (Program.parse ",.,.").cost .steady .coarse (Example.ofLists ["cx"] ["cc"]) = .valid 1 := by
  decide +kernel

end TapeBreeder
