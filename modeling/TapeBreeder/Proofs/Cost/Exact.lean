import Mathlib.Algebra.GroupWithZero.Nat
import TapeBreeder.Proofs.Cost.Solved

/-!
# Exact amounts

Charges stop at a limit in every sum and product on the way: character by character, penalty by
penalty, example by example. Here each formula for a charge is written once more over the natural
numbers, where nothing stops, and the charge is the exact amount stopped once.

* `Exact.distance`, `Exact.bucket`, `Exact.pair`, `Exact.timeout` — the formulas without a limit.
* `Exact.total` — the exact amounts of all examples together.
* `Program.baseCost_eq_invalid_iff` — what leaves a program without a cost.
* `charges_eq_clamped` — every charge, and the cost of a program, is an exact amount stopped once.
-/

namespace TapeBreeder

/-! ## Formulas without a limit -/

namespace Exact

/-- The distances of the characters that stand at the same places. -/
def alignedDistance (output target : List Char) : Nat :=
  (List.zipWith (fun o t => absDiff o.toNat t.toNat) output target).sum

/-- The distance of what one of the two has and the other has not. -/
def tailDistance (output target : List Char) : Nat :=
  if output.length < target.length then (target.length - output.length) * maxCell
  else ((output.drop target.length).map Char.toNat).sum

/-- The distance of an output from a target, in code points. -/
def distance (penalties : PenaltyTable) (output target : String) : Nat :=
  penalties.wrongChar.amount *
    (alignedDistance output.toList target.toList + tailDistance output.toList target.toList)

/-- The amount for the length of an output. -/
def length (penalties : PenaltyTable) (output target : List Char) : Nat :=
  if target.length < output.length then
    penalties.tooLong.amount * (output.length - target.length)
  else penalties.tooShort.amount * (target.length - output.length)

/-- The amount for the content of an output. -/
def content (penalties : PenaltyTable) (output target : List Char) : Nat :=
  if occursIn target output then
    penalties.extraChar.amount * (output.length - target.length)
  else if occursIn output target then
    penalties.missingChar.amount * (target.length - output.length)
  else
    penalties.nonIntersection.amount *
      (output.length - target.countP fun c => output.contains c)

/-- The distance of an output from a target, by the kind of failure. -/
def bucket (penalties : PenaltyTable) (output target : String) : Nat :=
  if output.toList.isEmpty then penalties.noOutput.amount
  else length penalties output.toList target.toList + content penalties output.toList target.toList

/-- The amount for printed characters that are no ASCII letters or digits. -/
def nonAscii (penalties : PenaltyTable) (output : String) : Nat :=
  (output.toList.countP fun c => !c.isAlphanum) * penalties.nonAscii.amount

/-- The distance of an output from a target under a policy. -/
def policy (options : CostOptions) (output target : String) : Nat :=
  match options.policy with
  | .characterDistance => distance options.penalties output target
  | .bucketed => bucket options.penalties output target

/-- The amount for an output. -/
def pair (options : CostOptions) (output target : String) : Nat :=
  if output = target then 0
  else
    options.penalties.notEqual.amount + policy options output target +
      if options.asciiOnly then nonAscii options.penalties output else 0

/-- The amount for a run out of time. -/
def timeout (options : CostOptions) (target : String) : Nat :=
  pair options "" target + options.penalties.timeout.amount

/-- The amount for an answer. Faulty brackets have no amount: they leave a program without a cost,
and nothing is added up. -/
def answer (options : CostOptions) (target : String) : Except RunError String → Nat
  | .ok output => pair options output target
  | .error (.timeout _) => timeout options target
  | .error (.brackets _) => 0

/-- The amounts for the answers of a program to all examples. -/
def total (clock : Clock) (options : CostOptions) (examples : List Example) (p : Program) : Nat :=
  (examples.map fun pair =>
    answer options pair.target (p.evaluate clock pair.input options.timeoutMs)).sum

end Exact

/-! ## Charges for one output -/

/-- Adding up charges step by step, with a stop at each step, comes to the same as adding up the
amounts and stopping once. All formulas below are sums and products of this kind. -/
theorem Charge.ofNat_sum (amounts : List Nat) : ofNat amounts.sum = (amounts.map ofNat).sum := by
  induction amounts with
  | nil => rfl
  | cons n amounts ih => rw [List.sum_cons, ofNat_add, ih, List.map_cons, List.sum_cons]

theorem Charge.ofNat_le_ofNat {m n : Nat} (h : m ≤ n) : ofNat m ≤ ofNat n := by
  show min m limit ≤ min n limit
  omega

/-- A larger amount is a larger charge unless the smaller one has reached the limit already. -/
theorem Charge.ofNat_lt_ofNat_iff {m n : Nat} (h : m < n) :
    ofNat m < ofNat n ↔ (ofNat m).amount ≠ limit := by
  show min m limit < min n limit ↔ min m limit ≠ limit
  omega

/-- Nothing is added to a charge that has reached the limit. -/
theorem Charge.ofNat_eq_of_limit {m n : Nat} (h : m ≤ n) (hlimit : (ofNat m).amount = limit) :
    ofNat n = ofNat m := by
  rw [amount_ofNat] at hlimit
  ext
  rw [amount_ofNat, amount_ofNat]
  omega

section

variable (penalties : PenaltyTable) (options : CostOptions) (output target : String)

/-- The charges of the places that both texts have are stopped one by one; their sum is the exact
one, stopped once. -/
theorem alignedDistance_eq (output target : List Char) :
    alignedDistance output target = Charge.ofNat (Exact.alignedDistance output target) := by
  unfold alignedDistance Exact.alignedDistance
  rw [Charge.ofNat_sum, List.map_zipWith]

/-- The same for the characters that only one of the two texts has. -/
theorem tailDistance_eq (output target : List Char) :
    tailDistance output target = Charge.ofNat (Exact.tailDistance output target) := by
  unfold tailDistance Exact.tailDistance
  -- Either the target has more characters, at the price of the largest cell, or the output has
  -- more, at the price of their code points.
  split
  · rw [Charge.ofNat_mul]
  · rw [Charge.ofNat_sum, List.map_map]
    rfl

/-- The distance in charges is the exact distance, stopped once, although each of its parts is
stopped on the way. -/
theorem distanceCharge_eq :
    distanceCharge penalties output target =
      Charge.ofNat (Exact.distance penalties output target) := by
  rw [distanceCharge, Exact.distance, alignedDistance_eq, tailDistance_eq, Charge.ofNat_mul,
    Charge.ofNat_add, Charge.ofNat_amount]

/-- The charge for the length. The penalty that counts is chosen by the lengths, which are not
stopped. -/
theorem lengthCharge_eq (output target : List Char) :
    lengthCharge penalties output target =
      Charge.ofNat (Exact.length penalties output target) := by
  unfold lengthCharge Exact.length
  split
  · rw [Charge.ofNat_mul, Charge.ofNat_amount]
  · rw [Charge.ofNat_mul, Charge.ofNat_amount]

theorem contentCharge_eq (output target : List Char) :
    contentCharge penalties output target =
      Charge.ofNat (Exact.content penalties output target) := by
  unfold contentCharge Exact.content
  split
  · rw [Charge.ofNat_mul, Charge.ofNat_amount]
  · split
    · rw [Charge.ofNat_mul, Charge.ofNat_amount]
    · rw [Charge.ofNat_mul, Charge.ofNat_amount]

/-- The distance by the kind of failure: an output without characters has one charge, any other has
two. -/
theorem bucketCharge_eq :
    bucketCharge penalties output target =
      Charge.ofNat (Exact.bucket penalties output target) := by
  unfold bucketCharge Exact.bucket
  split
  · rw [Charge.ofNat_amount]
  · rw [lengthCharge_eq, contentCharge_eq, Charge.ofNat_add]

theorem nonAsciiCharge_eq :
    nonAsciiCharge penalties output = Charge.ofNat (Exact.nonAscii penalties output) := by
  rw [nonAsciiCharge, Exact.nonAscii, Charge.ofNat_mul, Charge.ofNat_amount]

theorem policyCharge_eq :
    policyCharge options output target = Charge.ofNat (Exact.policy options output target) := by
  unfold policyCharge Exact.policy
  cases options.policy with
  | characterDistance => exact distanceCharge_eq options.penalties output target
  | bucketed => exact bucketCharge_eq options.penalties output target

/-- A match is free on both sides. A mismatch adds up to three charges, of which the last is a
matter of settings. -/
theorem pairCharge_eq :
    pairCharge options output target = Charge.ofNat (Exact.pair options output target) := by
  have hmismatch : options.penalties.notEqual + policyCharge options output target =
      Charge.ofNat (options.penalties.notEqual.amount + Exact.policy options output target) := by
    rw [Charge.ofNat_add, Charge.ofNat_amount, policyCharge_eq]
  unfold pairCharge Exact.pair
  -- Only the equality of the two texts decides whether anything is charged.
  by_cases heq : output = target
  · rw [if_pos heq, if_pos heq]
    rfl
  · rw [if_neg heq, if_neg heq, hmismatch]
    by_cases hascii : options.asciiOnly = true
    · rw [if_pos hascii, if_pos hascii, nonAsciiCharge_eq, ← Charge.ofNat_add]
    · rw [if_neg hascii, if_neg hascii, Nat.add_zero]

theorem timeoutCharge_eq :
    timeoutCharge options target = Charge.ofNat (Exact.timeout options target) := by
  rw [timeoutCharge, Exact.timeout, pairCharge_eq, Charge.ofNat_add, Charge.ofNat_amount]

end

/-! ## Costs of programs -/

theorem Cost.valid_ofNat_sum (amounts : List Nat) :
    valid (.ofNat amounts.sum) = (amounts.map fun n => valid (.ofNat n)).sum := by
  induction amounts with
  | nil => rfl
  | cons n amounts ih =>
    rw [List.sum_cons, Charge.ofNat_add, List.map_cons, List.sum_cons, ← ih, valid_add_valid]

variable {clock : Clock} {options : CostOptions} {examples : List Example} {p : Program}

/-- What is charged for the end of a run is the exact amount of its answer. -/
theorem Outcome.charge?_eq_some {o : Outcome} {target : String} {charge : Charge}
    (h : o.charge? options target = some charge) :
    charge = Charge.ofNat (Exact.answer options target (o.answer options.timeoutMs)) := by
  cases o with
  | halted output =>
    obtain rfl := Option.some.inj h
    exact pairCharge_eq options output target
  | failed fault => cases h
  | outOfBudget =>
    -- Time is charged for only if running out of it does not disqualify.
    cases hpolicy : options.timeoutPolicy with
    | penalize =>
      simp only [charge?, hpolicy] at h
      obtain rfl := Option.some.inj h
      exact timeoutCharge_eq options target
    | disqualify =>
      simp only [charge?, hpolicy] at h
      cases h

/-- Nothing can be charged for faulty brackets, nor for a run out of time that disqualifies. -/
theorem Outcome.charge?_eq_none_iff {o : Outcome} {target : String} :
    o.charge? options target = none ↔
      (∃ fault, o.answer options.timeoutMs = .error (.brackets fault)) ∨
        (options.timeoutPolicy = .disqualify ∧
          o.answer options.timeoutMs = .error (.timeout options.timeoutMs)) := by
  cases o with
  | halted output => simp [charge?, answer]
  | failed fault => simp [charge?, answer]
  | outOfBudget => cases hpolicy : options.timeoutPolicy <;> simp [charge?, answer, hpolicy]

/-- Whether some answer leaves a program without a cost. -/
def Program.IsDisqualified (clock : Clock) (options : CostOptions) (examples : List Example)
    (p : Program) : Prop :=
  (∃ pair ∈ examples, ∃ fault,
    p.evaluate clock pair.input options.timeoutMs = .error (.brackets fault)) ∨
  (options.timeoutPolicy = .disqualify ∧ ∃ pair ∈ examples,
    p.evaluate clock pair.input options.timeoutMs = .error (.timeout options.timeoutMs))

namespace Program

/-- A program is disqualified exactly if some example has no charge, which is how the sum over the
examples finds out. -/
theorem isDisqualified_iff :
    p.IsDisqualified clock options examples ↔
      ∃ pair ∈ examples,
        (p.ending clock options pair.input).charge? options pair.target = none := by
  simp only [IsDisqualified, Outcome.charge?_eq_none_iff]
  constructor
  · rintro (⟨pair, hmem, fault, hfault⟩ | ⟨hpolicy, pair, hmem, htimeout⟩)
    · exact ⟨pair, hmem, .inl ⟨fault, hfault⟩⟩
    · exact ⟨pair, hmem, .inr ⟨hpolicy, htimeout⟩⟩
  · rintro ⟨pair, hmem, ⟨fault, hfault⟩ | ⟨hpolicy, htimeout⟩⟩
    · exact .inl ⟨pair, hmem, fault, hfault⟩
    · exact .inr ⟨hpolicy, pair, hmem, htimeout⟩

/-- A program has no cost if it cannot be loaded or if some answer disqualifies it. -/
theorem baseCost_eq_invalid_iff :
    (p.baseCost clock options examples).cost = .invalid ↔
      (∃ fault, JumpTable.build p.symbols = .error fault) ∨
        p.IsDisqualified clock options examples := by
  rw [← not_isLoadable_iff_exists_fault]
  by_cases h : p.isLoadable
  · rw [baseCost_of_isLoadable h, Cost.sum_eq_invalid_iff, List.mem_map, isDisqualified_iff]
    simp only [pairCost, Cost.ofCharge?_eq_invalid_iff, h, not_true_eq_false, false_or]
  · exact ⟨fun _ => .inl h, fun _ => baseCost_of_not_isLoadable h⟩

/-- An example that does not disqualify a program costs the exact amount of the answer. -/
theorem pairCost_eq_valid {pair : Example} (h : p.pairCost clock options pair ≠ .invalid) :
    p.pairCost clock options pair = .valid (Charge.ofNat
      (Exact.answer options pair.target (p.evaluate clock pair.input options.timeoutMs))) := by
  unfold pairCost at h ⊢
  cases hcharge : (p.ending clock options pair.input).charge? options pair.target with
  | none => exact absurd (Cost.ofCharge?_eq_invalid_iff.mpr hcharge) h
  | some charge => exact congrArg Cost.valid (Outcome.charge?_eq_some hcharge)

/-- What a program costs in all is the sum of the exact amounts, stopped once. -/
theorem baseCost_eq_valid (h : (p.baseCost clock options examples).cost ≠ .invalid) :
    (p.baseCost clock options examples).cost =
      .valid (Charge.ofNat (Exact.total clock options examples p)) := by
  have hloadable := isLoadable_of_baseCost_ne h
  rw [baseCost_of_isLoadable hloadable, Ne, Cost.sum_eq_invalid_iff] at h
  -- A sum of costs is valid only if each part is, so every example has a charge.
  have hpairs : ∀ pair ∈ examples, p.pairCost clock options pair = .valid (Charge.ofNat
      (Exact.answer options pair.target (p.evaluate clock pair.input options.timeoutMs))) := by
    intro pair hmem
    apply pairCost_eq_valid
    intro hinvalid
    exact h (List.mem_map.mpr ⟨pair, hmem, hinvalid⟩)
  rw [baseCost_of_isLoadable hloadable, List.map_congr_left hpairs, Exact.total,
    Cost.valid_ofNat_sum, List.map_map]
  rfl

end Program

/-- Every charge is the amount of the same formula without a limit, stopped once at the largest
number of 64 bits, whatever the penalties are. A program has no cost if it cannot be loaded, if it
answers some example with faulty brackets, or if it runs out of time and that disqualifies; else its
cost is the sum of the exact amounts of its answers, stopped once. -/
theorem charges_eq_clamped (clock : Clock) (options : CostOptions) :
    (∀ output target : String,
      (distanceCharge options.penalties output target).amount =
        min (2 ^ 64 - 1) (Exact.distance options.penalties output target) ∧
      (bucketCharge options.penalties output target).amount =
        min (2 ^ 64 - 1) (Exact.bucket options.penalties output target) ∧
      (pairCharge options output target).amount =
        min (2 ^ 64 - 1) (Exact.pair options output target) ∧
      (timeoutCharge options target).amount =
        min (2 ^ 64 - 1) (Exact.timeout options target)) ∧
    ∀ (examples : List Example) (p : Program),
      ((p.baseCost clock options examples).cost = .invalid ↔
        (∃ fault, JumpTable.build p.symbols = .error fault) ∨
        (∃ pair ∈ examples, ∃ fault,
          p.evaluate clock pair.input options.timeoutMs = .error (.brackets fault)) ∨
        (options.timeoutPolicy = .disqualify ∧ ∃ pair ∈ examples,
          p.evaluate clock pair.input options.timeoutMs = .error (.timeout options.timeoutMs))) ∧
      ((p.baseCost clock options examples).cost ≠ .invalid →
        ∃ total, (p.baseCost clock options examples).cost = .valid total ∧
          total.amount = min (2 ^ 64 - 1) (Exact.total clock options examples p)) := by
  -- An amount of a charge is a number stopped at the limit, which the statement spells out.
  have hclamp : ∀ n, (Charge.ofNat n).amount = min (2 ^ 64 - 1) n := by
    intro n
    exact Nat.min_comm n (2 ^ 64 - 1)
  constructor
  · intro output target
    rw [distanceCharge_eq, bucketCharge_eq, pairCharge_eq, timeoutCharge_eq]
    exact ⟨hclamp _, hclamp _, hclamp _, hclamp _⟩
  · intro examples p
    constructor
    · exact Program.baseCost_eq_invalid_iff
    · intro hvalid
      exact ⟨_, Program.baseCost_eq_valid hvalid, hclamp _⟩

/-- Settings under which each mismatch and each unit of distance costs as much as can be. -/
def CostOptions.steep : CostOptions where
  penalties := { wrongChar := 18446744073709551615, notEqual := 18446744073709551615 }

/-- The distance of one pair is worth more than a charge can be, and the other pair adds to that;
what is paid in all is the limit. -/
theorem charges_eq_clamped_steep :
    ((Program.parse ",.").baseCost .steady .steep (Example.ofLists ["a", ""] ["c", "b"])).cost ≠
        .invalid ∧
      Exact.total .steady .steep (Example.ofLists ["a", ""] ["c", "b"]) (Program.parse ",.") =
        3 * (2 ^ 64 - 1) + (99 * (2 ^ 64 - 1) + 1) ∧
      ∃ total, ((Program.parse ",.").baseCost .steady .steep
        (Example.ofLists ["a", ""] ["c", "b"])).cost = .valid total ∧
          total.amount = 2 ^ 64 - 1 := by
  have hvalid : ((Program.parse ",.").baseCost .steady .steep
      (Example.ofLists ["a", ""] ["c", "b"])).cost ≠ .invalid := by
    decide +kernel
  have hexact : Exact.total .steady .steep (Example.ofLists ["a", ""] ["c", "b"])
      (Program.parse ",.") = 3 * (2 ^ 64 - 1) + (99 * (2 ^ 64 - 1) + 1) := by
    decide +kernel
  rcases ((charges_eq_clamped .steady .steep).2 (Example.ofLists ["a", ""] ["c", "b"])
    (Program.parse ",.")).2 hvalid with ⟨total, hcost, hamount⟩
  rw [hexact] at hamount
  exact ⟨hvalid, hexact, total, hcost, hamount⟩

end TapeBreeder
