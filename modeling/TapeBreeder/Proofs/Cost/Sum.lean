import Mathlib.Algebra.BigOperators.Group.List.Basic
import Mathlib.Data.List.FinRange
import TapeBreeder.Cost.Score
import TapeBreeder.Proofs.Brackets.Depth
import TapeBreeder.Proofs.Cost.Miss

/-!
# Costs add up

Scoring goes through the examples one by one and stops at the first one that leaves a program
without a cost. For the cost it might as well go through all of them, in any order: costs are a
commutative monoid, in which `invalid` absorbs whatever it is added to, and the cost of a program is
the sum of what it costs on each example.

* `AddCommMonoid Cost` — sums of costs.
* `Program.pairCost`, `Program.scoreFrom_cost` — the cost of one example, and the loop as a sum.
* `Program.baseCost_append`, `Program.baseCost_perm` — scoring as a homomorphism.
* `Program.baseCost_congr` — scores depend on what is charged and executed for each example.
* `baseCost_adds_up` — the two for parallel lists of inputs and targets, too.
-/

namespace TapeBreeder

/-! ## Sums of charges -/

namespace Charge

/-- The order of charges makes no difference, even if the sum is stopped. -/
theorem add_comm (a b : Charge) : a + b = b + a := by
  ext
  rw [amount_add, amount_add, Nat.add_comm]

/-- It does not matter where a sum reaches the limit. -/
theorem add_assoc (a b c : Charge) : a + b + c = a + (b + c) := by
  ext
  simp only [amount_add]
  omega

/-- A charge is never above the limit, so adding nothing does not change it. -/
theorem zero_add (a : Charge) : 0 + a = a := by
  have hle := a.amount_le
  ext
  show min (0 + a.amount) limit = a.amount
  omega

end Charge

/-! ## Sums of costs -/

namespace Cost

instance : Zero Cost :=
  ⟨valid 0⟩

/-- What has no cost has none with anything added to it. -/
instance : Add Cost where
  add
    | valid a, valid b => valid (a + b)
    | _, _ => invalid

@[simp] theorem valid_add_valid (a b : Charge) : valid a + valid b = valid (a + b) :=
  rfl

@[simp] theorem invalid_add (c : Cost) : invalid + c = invalid :=
  rfl

@[simp] theorem add_invalid (c : Cost) : c + invalid = invalid := by
  cases c <;> rfl

theorem zero_def : (0 : Cost) = valid 0 :=
  rfl

theorem add_eq_invalid_iff {a b : Cost} : a + b = invalid ↔ a = invalid ∨ b = invalid := by
  cases a <;> cases b <;> simp

/-- Costs are never negative, so a sum is zero only if its parts are. -/
theorem add_eq_zero_iff {a b : Cost} : a + b = 0 ↔ a = 0 ∧ b = 0 := by
  cases a <;> cases b <;> simp [zero_def, Charge.add_eq_zero_iff]

/-- With `zero_add` this makes costs a commutative monoid, so that `List.sum` and its lemmas apply
to them. -/
theorem add_comm (a b : Cost) : a + b = b + a := by
  cases a <;> cases b <;> simp [Charge.add_comm]

theorem zero_add (c : Cost) : 0 + c = c := by
  cases c with
  | valid a => exact congrArg valid a.zero_add
  | invalid => rfl

instance : AddCommMonoid Cost where
  add_assoc a b c := by
    cases a <;> cases b <;> cases c <;> simp [Charge.add_assoc]
  zero_add := zero_add
  add_zero c := (add_comm c 0).trans (zero_add c)
  add_comm := add_comm
  nsmul := nsmulRec

/-- One example without a cost leaves the whole program without one. -/
theorem sum_eq_invalid_iff {costs : List Cost} : costs.sum = invalid ↔ invalid ∈ costs := by
  induction costs with
  | nil => simp [zero_def]
  | cons c costs ih => rw [List.sum_cons, add_eq_invalid_iff, ih, List.mem_cons, eq_comm]

theorem sum_eq_zero_iff {costs : List Cost} : costs.sum = 0 ↔ ∀ c ∈ costs, c = 0 := by
  induction costs with
  | nil => simp
  | cons c costs ih => rw [List.sum_cons, add_eq_zero_iff, ih, List.forall_mem_cons]

/-- The cost of what is charged, if anything can be. -/
def ofCharge? : Option Charge → Cost
  | some charge => valid charge
  | none => invalid

theorem ofCharge?_eq_invalid_iff {charge : Option Charge} :
    ofCharge? charge = invalid ↔ charge = none := by
  cases charge <;> simp [ofCharge?]

theorem ofCharge?_eq_zero_iff {charge : Option Charge} :
    ofCharge? charge = 0 ↔ charge = some 0 := by
  cases charge <;> simp [ofCharge?, zero_def]

end Cost

/-! ## Scoring as a sum -/

variable {clock : Clock} {options : CostOptions} {examples : List Example} {p : Program}

namespace Program

/-- How a program ends on an input within the budget of the settings. -/
def ending (clock : Clock) (options : CostOptions) (p : Program) (input : String) : Outcome :=
  (p.run input (clock.symbolsWithin options.timeoutMs)).outcome

/-- What a program costs on one example. -/
def pairCost (clock : Clock) (options : CostOptions) (p : Program) (pair : Example) : Cost :=
  .ofCharge? ((p.ending clock options pair.input).charge? options pair.target)

/-- How many symbols a program executes on an input. -/
def executedOn (clock : Clock) (options : CostOptions) (p : Program) (input : String) : Nat :=
  clock.symbolsWithin options.timeoutMs -
    (p.run input (clock.symbolsWithin options.timeoutMs)).unspent

/-- An example that nothing can be charged for ends the scoring; else what is charged for it is
added up, and scoring goes on with the other examples. -/
theorem scoreFrom_cons {pair : Example} {rest : List Example} {total : Charge} {executed : Nat} :
    scoreFrom clock options p total executed (pair :: rest) =
      match (p.ending clock options pair.input).charge? options pair.target with
      | none => ⟨.invalid, executed + p.executedOn clock options pair.input⟩
      | some charge => scoreFrom clock options p (total + charge)
          (executed + p.executedOn clock options pair.input) rest :=
  rfl

/-- Scoring adds up what the examples cost; that it stops at the first one without a cost makes no
difference to the sum. -/
theorem scoreFrom_cost {total : Charge} {executed : Nat} :
    (scoreFrom clock options p total executed examples).cost =
      .valid total + (examples.map (p.pairCost clock options)).sum := by
  induction examples generalizing total executed with
  | nil => exact (add_zero (Cost.valid total)).symm
  | cons pair rest ih =>
    rw [List.map_cons, List.sum_cons, ← add_assoc, scoreFrom_cons, pairCost]
    -- Scoring goes on only where there is a charge. Where there is none, the rest is added to what
    -- is invalid already.
    cases (p.ending clock options pair.input).charge? options pair.target with
    | none => rw [Cost.ofCharge?, Cost.add_invalid, Cost.invalid_add]
    | some charge =>
      rw [Cost.ofCharge?, Cost.valid_add_valid]
      exact ih

/-- The cost of a program that can be loaded is the sum over the examples. -/
theorem baseCost_of_isLoadable (h : p.isLoadable) :
    (p.baseCost clock options examples).cost = (examples.map (p.pairCost clock options)).sum := by
  rcases isLoadable_iff_exists_build.mp h with ⟨table, hbuild⟩
  unfold baseCost load
  rw [hbuild]
  exact scoreFrom_cost.trans (zero_add _)

/-- A program that cannot be loaded has no cost, whatever the examples are, and even if there are
none. -/
theorem baseCost_of_not_isLoadable (h : ¬ p.isLoadable) :
    (p.baseCost clock options examples).cost = .invalid := by
  rcases not_isLoadable_iff_exists_fault.mp h with ⟨fault, hbuild⟩
  unfold baseCost load
  rw [hbuild]
  rfl

theorem isLoadable_of_baseCost_ne (h : (p.baseCost clock options examples).cost ≠ .invalid) :
    p.isLoadable := by
  apply Decidable.byContradiction
  intro hbroken
  exact h (baseCost_of_not_isLoadable hbroken)

/-- Examples can be scored in two parts. A program that cannot be loaded fails in both. -/
theorem baseCost_append (before behind : List Example) :
    (p.baseCost clock options (before ++ behind)).cost =
      (p.baseCost clock options before).cost + (p.baseCost clock options behind).cost := by
  -- Loading is tried once for each part, with the same result.
  by_cases h : p.isLoadable
  · rw [baseCost_of_isLoadable h, baseCost_of_isLoadable h, baseCost_of_isLoadable h,
      List.map_append, List.sum_append]
  · rw [baseCost_of_not_isLoadable h, baseCost_of_not_isLoadable h, Cost.invalid_add]

/-- A sum does not depend on the order of its parts, although scoring stops at the first example
without a cost. -/
theorem baseCost_perm {reordered : List Example} (h : reordered.Perm examples) :
    (p.baseCost clock options reordered).cost = (p.baseCost clock options examples).cost := by
  by_cases hp : p.isLoadable
  · rw [baseCost_of_isLoadable hp, baseCost_of_isLoadable hp]
    exact (h.map _).sum_eq
  · rw [baseCost_of_not_isLoadable hp, baseCost_of_not_isLoadable hp]

/-! What a score depends on. -/

section

variable {clock' : Clock} {options' : CostOptions}

/-- A score depends on the charge for each example and on the number of symbols executed on it, and
on nothing else of the clock or the settings. -/
theorem scoreFrom_congr {total : Charge} {executed : Nat}
    (hcharge : ∀ pair ∈ examples,
      (p.ending clock' options' pair.input).charge? options' pair.target =
        (p.ending clock options pair.input).charge? options pair.target)
    (hexecuted : ∀ pair ∈ examples,
      p.executedOn clock' options' pair.input = p.executedOn clock options pair.input) :
    scoreFrom clock' options' p total executed examples =
      scoreFrom clock options p total executed examples := by
  induction examples generalizing total executed with
  | nil => rfl
  | cons pair rest ih =>
    rw [List.forall_mem_cons] at hcharge hexecuted
    rw [scoreFrom_cons, scoreFrom_cons, hcharge.1, hexecuted.1]
    -- Both sides stop at the same example, if at any.
    cases (p.ending clock options pair.input).charge? options pair.target with
    | none => rfl
    | some charge => exact ih hcharge.2 hexecuted.2

/-- If a program is charged the same for every example and executes as many symbols on it, its
scores are the same. -/
theorem baseCost_congr
    (hcharge : ∀ pair ∈ examples,
      (p.ending clock' options' pair.input).charge? options' pair.target =
        (p.ending clock options pair.input).charge? options pair.target)
    (hexecuted : ∀ pair ∈ examples,
      p.executedOn clock' options' pair.input = p.executedOn clock options pair.input) :
    p.baseCost clock' options' examples = p.baseCost clock options examples := by
  unfold baseCost
  cases p.load with
  | error fault => rfl
  | ok code => exact scoreFrom_congr hcharge hexecuted

end

end Program

/-- Parallel lists of equal length are a list of pairs. -/
theorem Example.ofLists_ofFn {n : Nat} (inputs targets : Fin n → String) :
    Example.ofLists (List.ofFn inputs) (List.ofFn targets) =
      List.ofFn fun i => ⟨inputs i, targets i⟩ := by
  unfold ofLists
  apply List.ext_getElem
  · simp
  · simp

/-- For every program and all settings, the cost on the examples of two lists together is invalid
exactly if it is on one of them, and else the sum of the two costs, stopped at the largest number of
64 bits. The order of the examples makes no difference, wherever scoring stops in it, and so neither
does a permutation of the inputs together with the targets. -/
theorem baseCost_adds_up (clock : Clock) (options : CostOptions) (p : Program) :
    (∀ before behind : List Example,
      ((p.baseCost clock options (before ++ behind)).cost = .invalid ↔
        (p.baseCost clock options before).cost = .invalid ∨
          (p.baseCost clock options behind).cost = .invalid) ∧
      ∀ a b : Charge, (p.baseCost clock options before).cost = .valid a →
        (p.baseCost clock options behind).cost = .valid b →
        ∃ total, (p.baseCost clock options (before ++ behind)).cost = .valid total ∧
          total.amount = min (2 ^ 64 - 1) (a.amount + b.amount)) ∧
    (∀ examples reordered : List Example, reordered.Perm examples →
      (p.baseCost clock options reordered).cost = (p.baseCost clock options examples).cost) ∧
    (∀ (n : Nat) (inputs targets : Fin n → String) (order : Equiv.Perm (Fin n)),
      (p.baseCost clock options
          (Example.ofLists (List.ofFn (inputs ∘ order)) (List.ofFn (targets ∘ order)))).cost =
        (p.baseCost clock options
          (Example.ofLists (List.ofFn inputs) (List.ofFn targets))).cost) := by
  refine ⟨?_, ?_, ?_⟩
  · intro before behind
    rw [Program.baseCost_append]
    refine ⟨Cost.add_eq_invalid_iff, ?_⟩
    intro a b ha hb
    -- The limit of a charge is the largest number of 64 bits.
    have hamount : (a + b).amount = min (2 ^ 64 - 1) (a.amount + b.amount) := by
      rw [Charge.amount_add, Nat.min_comm]
      rfl
    rw [ha, hb]
    exact ⟨a + b, rfl, hamount⟩
  · intro examples reordered hperm
    exact Program.baseCost_perm hperm
  · intro n inputs targets order
    rw [Example.ofLists_ofFn, Example.ofLists_ofFn]
    apply Program.baseCost_perm
    -- To permute both lists in the same way is to permute the pairs.
    exact order.ofFn_comp_perm fun i => Example.mk (inputs i) (targets i)

/-- A clock of a machine that takes a millisecond for each symbol. -/
def Clock.slow : Clock where
  symbolsWithin milliseconds := milliseconds.toNat
  elapsed _ _ symbols := 1000000 * symbols
  symbolsWithin_mono h := UInt64.le_iff_toNat_le.mp h

/-- Settings under which a mismatch costs as much as can be and no program may run out of time. -/
def CostOptions.severe : CostOptions where
  penalties := { notEqual := 18446744073709551615 }
  timeoutPolicy := .disqualify

/-- A program that goes on behind an unclosed `[` for ever, unless the first character is U+0001.
Two mismatches together cost no more than one. Without a character it fails at the `[`, with another
character it runs out of time, and it has no cost whichever comes first, though more is executed
when it is the latter. -/
theorem baseCost_adds_up_stopped :
    let cost := fun examples =>
      ((Program.parse ",[-[]").baseCost .slow .severe examples).cost
    let executed := fun examples =>
      ((Program.parse ",[-[]").baseCost .slow .severe examples).executed
    (∃ a, cost [⟨"\x01", "x"⟩] = .valid a ∧ a.amount = 2 ^ 64 - 1) ∧
      (∃ total, cost ([⟨"\x01", "x"⟩] ++ [⟨"\x01", "x"⟩]) = .valid total ∧
        total.amount = 2 ^ 64 - 1) ∧
      executed [⟨"", ""⟩, ⟨"a", "a"⟩, ⟨"\x01", ""⟩] = 2 ∧
      executed [⟨"a", "a"⟩, ⟨"\x01", ""⟩, ⟨"", ""⟩] = 10 ∧
      cost [⟨"a", "a"⟩, ⟨"\x01", ""⟩, ⟨"", ""⟩] = cost [⟨"", ""⟩, ⟨"a", "a"⟩, ⟨"\x01", ""⟩] := by
  intro cost executed
  have hmismatch : cost [⟨"\x01", "x"⟩] = .valid (.ofNat (2 ^ 64 - 1)) := by decide +kernel
  have hadds := baseCost_adds_up .slow .severe (Program.parse ",[-[]")
  rcases (hadds.1 [⟨"\x01", "x"⟩] [⟨"\x01", "x"⟩]).2 _ _ hmismatch hmismatch with
    ⟨total, hcost, hamount⟩
  have hrotated : ([⟨"a", "a"⟩, ⟨"\x01", ""⟩, ⟨"", ""⟩] : List Example).Perm
      [⟨"", ""⟩, ⟨"a", "a"⟩, ⟨"\x01", ""⟩] := by decide
  refine ⟨⟨_, hmismatch, rfl⟩, ⟨total, hcost, hamount⟩, ?_, ?_, hadds.2.1 _ _ hrotated⟩
  · decide +kernel
  · decide +kernel

end TapeBreeder
