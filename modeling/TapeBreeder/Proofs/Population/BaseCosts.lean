import TapeBreeder.Proofs.Population.Evaluation
import TapeBreeder.Search.Engine

/-!
# Lowest costs

What a search takes note of after a generation is the lowest cost without runtime, and runtime has
no part in it: neither the clock that measures it nor whether it is charged.

* `Evaluation.SumsUp.bestBaseCost?_eq_some_iff` — the lowest cost of an evaluation is that of the
  population.
* `Evaluation.SumsUp.agree` — evaluations with the same costs without runtime tell the same.
* `Evaluation.bestBaseCost?_sorted` — it does not matter by which cost the programs are sorted.
* `Program.baseCost_charging` — the cost without runtime depends on how many symbols fit into a
  budget, and on nothing else that a clock says; and not on whether runtime is charged.
* `State.sumsUp_evaluation` — so what a search evaluates is summed up by the costs under its
  own settings, whether it is stagnant or not.
-/

namespace TapeBreeder

/-! ## The order of charges -/

namespace Charge

instance : Std.IsLinearOrder Charge := by
  apply Std.IsLinearOrder.of_le
  · refine ⟨?_⟩
    intro a b hab hba
    exact Charge.ext (Nat.le_antisymm hab hba)
  · refine ⟨?_⟩
    intro a b c hab hbc
    exact Nat.le_trans hab hbc
  · refine ⟨?_⟩
    intro a b
    exact Nat.le_total a.amount b.amount

instance : Std.LawfulOrderMin Charge := by
  apply Std.LawfulOrderMin.of_le_min_iff
  · intro a b c
    by_cases hle : b ≤ c
    · have hmin : min b c = b := if_pos hle
      rw [hmin]
      exact ⟨fun h => ⟨h, Nat.le_trans h hle⟩, fun h => h.1⟩
    · have hmin : min b c = c := if_neg hle
      rw [hmin]
      exact ⟨fun h => ⟨Nat.le_trans h (Nat.le_of_not_le hle), h⟩, fun h => h.2⟩
  · intro a b
    by_cases hle : a ≤ b
    · exact .inl (if_pos hle)
    · exact .inr (if_neg hle)

end Charge

/-! ## Evaluations -/

namespace Evaluation

variable {base : Program → Cost} {population : List Program} {e : Evaluation}

/-- The lowest base cost, in terms of what `SumsUp` says about scored programs. -/
theorem bestBaseCost?_eq (e : Evaluation) :
    e.bestBaseCost? = ((e.scored.map fun s => (s.program, s.baseCost)).map (·.2)).min? := by
  rw [bestBaseCost?, List.map_map]
  rfl

/-- Evaluations that are told by the same costs without runtime agree on all but the costs with
runtime. -/
theorem SumsUp.agree {f : Evaluation} (he : e.SumsUp base population)
    (hf : f.SumsUp base population) :
    e.winner = f.winner ∧ e.invalid = f.invalid ∧
      e.scored.map (fun s => (s.program, s.baseCost)) =
        f.scored.map (fun s => (s.program, s.baseCost)) ∧
      e.bestBaseCost? = f.bestBaseCost? := by
  have hscored := he.scored.trans hf.scored.symm
  refine ⟨he.winner.trans hf.winner.symm, he.invalid.trans hf.invalid.symm, hscored, ?_⟩
  rw [bestBaseCost?_eq, bestBaseCost?_eq, hscored]

/-- The lowest cost without runtime is the lowest one of the population. -/
theorem SumsUp.bestBaseCost?_eq_some_iff (h : e.SumsUp base population) {best : Charge} :
    e.bestBaseCost? = some best ↔
      (∃ p ∈ population, base p = .valid best) ∧
        ∀ p ∈ population, ∀ total, base p = .valid total → best ≤ total := by
  -- A total is among the scored ones exactly if some program of the population has it.
  have hmem : ∀ total, total ∈ (e.scored.map fun s => (s.program, s.baseCost)).map (·.2) ↔
      ∃ p ∈ population, base p = .valid total := by
    intro total
    rw [h.scored, List.map_filterMap, List.mem_filterMap]
    simp [Cost.total?_eq_some_iff]
  rw [bestBaseCost?_eq, List.min?_eq_some_iff, hmem]
  constructor
  · rintro ⟨hbest, hleast⟩
    refine ⟨hbest, ?_⟩
    intro p hp total htotal
    exact hleast total ((hmem total).mpr ⟨p, hp, htotal⟩)
  · rintro ⟨hbest, hleast⟩
    refine ⟨hbest, ?_⟩
    intro total htotal
    rcases (hmem total).mp htotal with ⟨p, hp, hbase⟩
    exact hleast p hp total hbase

/-- Sorting by the costs with runtime does not touch the lowest cost without it. -/
theorem bestBaseCost?_sorted (e : Evaluation) : e.sorted.bestBaseCost? = e.bestBaseCost? := by
  apply Option.ext
  intro best
  have hmem : ∀ total, total ∈ e.sorted.scored.map (·.baseCost) ↔
      total ∈ e.scored.map (·.baseCost) := by
    intro total
    simp only [List.mem_map, mem_scored_sorted]
  rw [bestBaseCost?, bestBaseCost?, List.min?_eq_some_iff, List.min?_eq_some_iff]
  simp only [hmem]

/-- An evaluation remembers whether runtime was charged. -/
theorem timeCost_ofCosts (timeCost : Bool) (results : List (Program × Cost × Cost)) :
    (ofCosts timeCost results).timeCost = timeCost := by
  induction results with
  | nil => rfl
  | cons result results ih =>
    rcases result with ⟨p, base, cost⟩
    show (cons p base cost (ofCosts timeCost results)).timeCost = timeCost
    cases base with
    | invalid => exact ih
    | valid base =>
      cases cost with
      | invalid => exact ih
      | valid cost => exact ih

end Evaluation

/-! ## Clocks and settings -/

/-- A clock for the same machine with other measured times. -/
def Clock.measuring (clock : Clock) (elapsed : (generation position symbols : Nat) → Nat) : Clock :=
  { clock with elapsed := elapsed }

/-- The settings with runtime charged or not. -/
def CostOptions.charging (options : CostOptions) (timeCost : Bool) : CostOptions :=
  { options with timeCost := timeCost }

/-- A charge does not depend on whether runtime is charged. -/
theorem Outcome.charge?_charging (options : CostOptions) (timeCost : Bool) (target : String)
    (o : Outcome) : o.charge? (options.charging timeCost) target = o.charge? options target := by
  cases o <;> rfl

/-- The cost without runtime depends on how many symbols fit into the budget of scoring, and on
nothing else that a clock says; and not on whether runtime is charged. -/
theorem Program.baseCost_charging {clock clock' : Clock} {options : CostOptions}
    (hbudget : clock'.symbolsWithin options.timeoutMs = clock.symbolsWithin options.timeoutMs)
    (timeCost : Bool) (examples : List Example) (p : Program) :
    p.baseCost clock (options.charging timeCost) examples = p.baseCost clock' options examples := by
  have htimeout : (options.charging timeCost).timeoutMs = options.timeoutMs := rfl
  apply baseCost_congr
  · intro pair _
    rw [Outcome.charge?_charging, ending, ending, htimeout, hbudget]
  · intro pair _
    rw [executedOn, executedOn, htimeout, hbudget]

/-- Stagnation has runtime charged, which a base cost does not contain. So the base costs of all
generations are those under the settings of the search. -/
theorem Program.baseCost_effective {clock clock' : Clock} {options : CostOptions}
    (hbudget : clock'.symbolsWithin options.timeoutMs = clock.symbolsWithin options.timeoutMs)
    (stagnant : Bool) (examples : List Example) (p : Program) :
    p.baseCost clock (options.effective stagnant) examples =
      p.baseCost clock' options examples :=
  baseCost_charging hbudget (options.timeCost || stagnant) examples p

/-! ## Generations of a search -/

namespace State

variable {σ : Type}

/-- A generation of a search, summed up by the settings of the search and by any clock with the same
budgets: neither stagnation nor measured runtime is left in it. -/
theorem sumsUp_evaluation {clock clock' : Clock}
    (hclock : clock'.symbolsWithin = clock.symbolsWithin) (s : State σ) :
    (evaluatePopulation clock s.engine.generation s.engine.costOptions s.engine.examples
      s.population).SumsUp
        (fun p => (p.baseCost clock' s.engine.config.cost s.engine.examples).cost)
        s.population := by
  -- The settings of a generation differ from those of the search in charging runtime only.
  have hcost : ∀ p : Program, p.baseCost clock s.engine.costOptions s.engine.examples =
      p.baseCost clock' s.engine.config.cost s.engine.examples := by
    intro p
    exact Program.baseCost_effective (congrFun hclock _) _ _ p
  simp only [← hcost]
  exact sumsUp_evaluatePopulation _ _ _ _ _

/-- Neither the number of invalid programs nor the winner depends on how programs are sorted. -/
theorem invalid_evaluate (clock : Clock) (s : State σ) :
    (s.evaluate clock).invalid = s.population.countP fun p =>
      (p.baseCost clock s.engine.config.cost s.engine.examples).cost.isInvalid :=
  (sumsUp_evaluation rfl s).invalid

/-- The winner of a generation is its first perfect program, whether runtime is charged or not. -/
theorem winner_evaluate (clock : Clock) (s : State σ) :
    (s.evaluate clock).winner = s.population.find? fun p =>
      (p.baseCost clock s.engine.config.cost s.engine.examples).cost.isPerfect :=
  (sumsUp_evaluation rfl s).winner

/-- Sorting loses no program, so each one is still scored or counted as invalid. -/
theorem length_scored_add_invalid (clock : Clock) (s : State σ) :
    (s.evaluate clock).scored.length + (s.evaluate clock).invalid = s.population.length := by
  have hsorted : (s.evaluate clock).scored.length = (evaluatePopulation clock s.engine.generation
      s.engine.costOptions s.engine.examples s.population).scored.length := List.length_mergeSort _
  rw [hsorted]
  exact (sumsUp_evaluatePopulation clock _ _ _ _).length_add_invalid

/-- The lowest cost of an evaluation is that of the population, whether runtime is charged or not
and whatever is measured. -/
theorem bestBaseCost?_evaluate_eq_some_iff {clock clock' : Clock} {s : State σ}
    (hclock : clock'.symbolsWithin = clock.symbolsWithin) {best : Charge} :
    (s.evaluate clock).bestBaseCost? = some best ↔
      (∃ p ∈ s.population,
        (p.baseCost clock' s.engine.config.cost s.engine.examples).cost = .valid best) ∧
      ∀ p ∈ s.population, ∀ total,
        (p.baseCost clock' s.engine.config.cost s.engine.examples).cost = .valid total →
          best ≤ total := by
  unfold evaluate
  rw [Evaluation.bestBaseCost?_sorted]
  exact (sumsUp_evaluation hclock s).bestBaseCost?_eq_some_iff

theorem timeCost_evaluate (clock : Clock) (s : State σ) :
    (s.evaluate clock).timeCost =
      (s.engine.config.cost.timeCost || s.engine.stagnation.isStagnant) :=
  Evaluation.timeCost_ofCosts _ _

end State

end TapeBreeder
