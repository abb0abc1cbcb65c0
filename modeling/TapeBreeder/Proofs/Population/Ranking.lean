import TapeBreeder.Proofs.Population.Collection

/-!
# The best program of a population

The winner of a population is picked in population order, the best program is the first one after
sorting by the costs with runtime, and the lowest cost is that of the costs without runtime. All
three agree: sorting keeps the order of programs that cost the same, and runtime adds to a cost
without ever touching a cost of zero.

* `FirstCheapest` — the first of the cheapest programs, by the costs that they are selected by.
* `Evaluation.exists_of_head?_sorted` — sorting brings the first of the cheapest ones to the front.
* `State.firstCheapest_of_head?` — so the best program of a population is that one.
* `State.evaluated_of_mem_scored` — what a scored program costs with runtime and without.
* `State.best_of_winner` — the best program of a population with a winner is the winner.
-/

namespace TapeBreeder

/-! ## Costs with runtime -/

/-- Runtime adds to a cost, unless it is not charged, and leaves nothing of a cost of zero. -/
theorem Cost.withRuntime_eq_valid {options : CostOptions} {nanoseconds : Nat}
    {total charged : Charge}
    (h : (valid total).withRuntime options nanoseconds = .valid charged) :
    total ≤ charged ∧ (charged = 0 ↔ total = 0) ∧
      (options.timeCost = false → charged = total) := by
  have hzero : charged = 0 ↔ total = 0 := by
    rcases exists_withRuntime_valid options nanoseconds total with ⟨other, hother, hzero⟩
    obtain rfl := Cost.valid.inj (h.symm.trans hother)
    exact hzero
  by_cases hcharged : options.timeCost ∧ 0 < total
  · rw [withRuntime, if_pos hcharged] at h
    obtain rfl := Cost.valid.inj h
    refine ⟨?_, hzero, ?_⟩
    · have hlimit := total.amount_le
      show total.amount ≤ _
      rw [Charge.amount_add]
      omega
    · intro hfree
      rw [hfree] at hcharged
      cases hcharged.1
  · rw [withRuntime, if_neg hcharged] at h
    obtain rfl := Cost.valid.inj h
    exact ⟨Nat.le_refl _, hzero, fun _ => rfl⟩

/-- A scored program costs no less than without runtime, nothing only if it costs nothing without
it, and just as much where no runtime is charged. -/
theorem charged_of_mem_scored {clock : Clock} {generation : Nat} {options : CostOptions}
    {examples : List Example} {population : List Program} {s : ScoredProgram}
    (h : s ∈ (evaluatePopulation clock generation options examples population).scored) :
    s.baseCost ≤ s.cost ∧ (s.cost = 0 ↔ s.baseCost = 0) ∧
      (options.timeCost = false → s.cost = s.baseCost) := by
  rcases exists_runtime_of_mem_scored h with ⟨nanoseconds, hcost⟩
  exact Cost.withRuntime_eq_valid hcost

/-! ## The first of the cheapest -/

/-- Whether a program is the first of the cheapest ones in a list of programs with costs: every one
before it costs more, and every one behind it costs no less. Invalid programs do not count. -/
def FirstCheapest (costs : List (Program × Cost)) (p : Program) (cost : Charge) : Prop :=
  ∃ before after, costs = before ++ (p, .valid cost) :: after ∧
    (∀ q ∈ before, ∀ other, q.2 = .valid other → cost < other) ∧
    ∀ q ∈ after, ∀ other, q.2 = .valid other → cost ≤ other

/-- Invalid programs can be left out. -/
theorem FirstCheapest.of_filterMap {costs : List (Program × Cost)} {p : Program} {cost : Charge}
    {before after : List (Program × Charge)}
    (h : (costs.filterMap fun q => q.2.total?.map (q.1, ·)) = before ++ (p, cost) :: after)
    (hbefore : ∀ q ∈ before, cost < q.2) (hafter : ∀ q ∈ after, cost ≤ q.2) :
    FirstCheapest costs p cost := by
  rcases List.filterMap_eq_append_iff.mp h with ⟨xs, rest, rfl, hxs, hrest⟩
  rcases List.filterMap_eq_cons_iff.mp hrest with ⟨ys, q, zs, rfl, hys, hq, hzs⟩
  rcases q with ⟨q, c⟩
  rcases Option.map_eq_some_iff.mp hq with ⟨total, htotal, hpair⟩
  obtain ⟨rfl, rfl⟩ := Prod.mk.inj hpair
  obtain rfl := Cost.total?_eq_some_iff.mp htotal
  have hmem : ∀ (costs : List (Program × Cost)) (q : Program × Cost) (other : Charge),
      q ∈ costs → q.2 = .valid other →
      (q.1, other) ∈ costs.filterMap fun q => q.2.total?.map (q.1, ·) := by
    intro costs q other hq hcost
    refine List.mem_filterMap.mpr ⟨q, hq, ?_⟩
    rw [Cost.total?_eq_some_iff.mpr hcost, Option.map_some]
  refine ⟨xs ++ ys, zs, by rw [List.append_assoc], ?_, ?_⟩
  · intro q hq other hcost
    rcases List.mem_append.mp hq with hq | hq
    · have hother := hmem xs q other hq hcost
      rw [hxs] at hother
      exact hbefore _ hother
    · -- Nothing between the programs before it and itself is valid.
      have hnone := hys q hq
      rw [Cost.total?_eq_some_iff.mpr hcost] at hnone
      cases hnone
  · intro q hq other hcost
    have hother := hmem zs q other hq hcost
    rw [hzs] at hother
    exact hafter _ hother

/-! ## Sorting by costs -/

/-- Comparing by cost is transitive, as sorting needs it. -/
theorem Charge.decide_le_trans {α : Type} (cost : α → Charge) :
    ∀ a b c : α, decide (cost a ≤ cost b) = true → decide (cost b ≤ cost c) = true →
      decide (cost a ≤ cost c) = true := by
  simp only [decide_eq_true_eq]
  intro a b c
  exact Nat.le_trans

/-- Comparing by cost is total as well. Different programs may cost the same, so it is no order on
programs. -/
theorem Charge.decide_le_total {α : Type} (cost : α → Charge) :
    ∀ a b : α, (decide (cost a ≤ cost b) || decide (cost b ≤ cost a)) = true := by
  simp only [Bool.or_eq_true, decide_eq_true_eq]
  intro a b
  exact Nat.le_total _ _

namespace Evaluation

/-- Sorting brings to the front what comes first among the cheapest. -/
theorem exists_of_head?_mergeSort {scored : List ScoredProgram} {best : ScoredProgram}
    (h : (scored.mergeSort fun a b => a.cost ≤ b.cost).head? = some best) :
    ∃ before after, scored = before ++ best :: after ∧
      (∀ other ∈ before, best.cost < other.cost) ∧ ∀ other ∈ after, best.cost ≤ other.cost := by
  have htrans := Charge.decide_le_trans ScoredProgram.cost
  have htotal := Charge.decide_le_total ScoredProgram.cost
  induction scored generalizing best with
  | nil => simp at h
  | cons a scored ih =>
    rcases List.mergeSort_cons htrans htotal a scored with ⟨xs, ys, hsort, hrest, hless⟩
    have hsorted := List.pairwise_mergeSort htrans htotal (a :: scored)
    rw [hsort] at h hsorted
    -- Where sorting puts the new program tells whether it is the best one.
    cases xs with
    | nil =>
      -- The new program is as cheap as any other, so it stays in front.
      obtain rfl : a = best := Option.some.inj h
      refine ⟨[], scored, rfl, by simp, ?_⟩
      intro other hother
      have hys : other ∈ ys := by
        rw [← List.nil_append ys, ← hrest]
        exact List.mem_mergeSort.mpr hother
      exact of_decide_eq_true (List.rel_of_pairwise_cons hsorted hys)
    | cons b xs =>
      -- A cheaper program comes first, and it does so without the new one too.
      obtain rfl : b = best := Option.some.inj h
      have hcheaper := hless b List.mem_cons_self
      rcases ih (by rw [hrest]; rfl) with ⟨before, after, rfl, hbefore, hafter⟩
      refine ⟨a :: before, after, rfl, ?_, hafter⟩
      intro other hother
      rcases List.mem_cons.mp hother with rfl | hother
      · rw [Bool.not_eq_true', decide_eq_false_iff_not] at hcheaper
        exact Nat.lt_of_not_le hcheaper
      · exact hbefore other hother

/-- The best program, in the order from before sorting: nothing in front of it is as cheap, and
nothing behind it is cheaper. -/
theorem exists_of_head?_sorted {e : Evaluation} {best : ScoredProgram}
    (h : e.sorted.scored.head? = some best) :
    ∃ before after, e.scored = before ++ best :: after ∧
      (∀ other ∈ before, best.cost < other.cost) ∧ ∀ other ∈ after, best.cost ≤ other.cost :=
  exists_of_head?_mergeSort h

end Evaluation

/-! ## Generations of a search -/

namespace State

variable {σ : Type} {clock : Clock} {s : State σ}

/-- The programs of the population with the costs that they are selected by: with the runtime that
is measured for each of them, if runtime is charged in the generation. -/
def costs (clock : Clock) (s : State σ) : List (Program × Cost) :=
  s.population.mapIdx fun position p =>
    let base := p.baseCost clock s.engine.costOptions s.engine.examples
    (p, base.cost.withRuntime s.engine.costOptions
      (clock.elapsed s.engine.generation position base.executed))

/-- The costs that programs are selected by are those among the results of scoring. -/
theorem costs_eq (clock : Clock) (s : State σ) :
    s.costs clock = (scoringResults clock s.engine.generation s.engine.costOptions
      s.engine.examples s.population).map fun result => (result.1, result.2.2) := by
  unfold costs scoringResults
  rw [List.mapIdx_eq_zipIdx_map, List.mapIdx_eq_zipIdx_map, List.map_map]
  rfl

/-- The program in front after sorting is the first of the cheapest in the population. -/
theorem firstCheapest_of_head? {best : ScoredProgram}
    (h : (s.evaluate clock).scored.head? = some best) :
    FirstCheapest (s.costs clock) best.program best.cost := by
  rcases Evaluation.exists_of_head?_sorted h with ⟨before, after, hscored, hbefore, hafter⟩
  -- What has been scored are the valid ones among all costs, in the same order.
  have hcosts : ((s.costs clock).filterMap fun q => q.2.total?.map (q.1, ·)) =
      (before ++ best :: after).map fun s => (s.program, s.cost) := by
    rw [← hscored, map_cost_scored_evaluatePopulation, costs_eq, List.filterMap_map]
    rfl
  rw [List.map_append, List.map_cons] at hcosts
  apply FirstCheapest.of_filterMap hcosts
  · intro q hq
    rcases List.mem_map.mp hq with ⟨other, hother, rfl⟩
    exact hbefore other hother
  · intro q hq
    rcases List.mem_map.mp hq with ⟨other, hother, rfl⟩
    exact hafter other hother

/-- Runtime never makes a program cheaper, and it is the only difference between the two costs. -/
theorem evaluated_of_mem_scored {p : ScoredProgram} (h : p ∈ (s.evaluate clock).scored) :
    p.baseCost ≤ p.cost ∧ (p.cost = 0 ↔ p.baseCost = 0) ∧
      ((s.evaluate clock).timeCost = false → p.cost = p.baseCost) := by
  rw [timeCost_evaluate]
  exact charged_of_mem_scored (Evaluation.mem_scored_sorted.mp h)

/-- The winner is the first scored program that is free, in population order. -/
theorem winner_eq_find? (clock : Clock) (s : State σ) :
    (s.evaluate clock).winner = ((evaluatePopulation clock s.engine.generation s.engine.costOptions
      s.engine.examples s.population).scored.find? fun p => p.cost = 0).map (·.program) :=
  Evaluation.winner_ofCosts _ _

/-- Without a winner nothing that is scored is free. -/
theorem cost_ne_zero_of_winner_eq_none (hwinner : (s.evaluate clock).winner = none)
    {p : ScoredProgram} (h : p ∈ (s.evaluate clock).scored) : p.cost ≠ 0 := by
  rw [winner_eq_find?, Option.map_eq_none_iff, List.find?_eq_none] at hwinner
  have hcost := hwinner p (Evaluation.mem_scored_sorted.mp h)
  simpa using hcost

/-- The best program of a population with a winner is the winner, and it is free. -/
theorem best_of_winner {winner : Program} (hwinner : (s.evaluate clock).winner = some winner) :
    ∃ best, (s.evaluate clock).scored.head? = some best ∧ best.program = winner ∧
      best.cost = 0 ∧ (s.evaluate clock).bestBaseCost? = some 0 := by
  rw [winner_eq_find?] at hwinner
  rcases Option.map_eq_some_iff.mp hwinner with ⟨first, hfirst, rfl⟩
  have hfree : first.cost = 0 := by simpa using List.find?_some hfirst
  have hmem : first ∈ (s.evaluate clock).scored :=
    Evaluation.mem_scored_sorted.mpr (List.mem_of_find?_eq_some hfirst)
  rcases List.exists_cons_of_ne_nil (List.ne_nil_of_mem hmem) with ⟨best, rest, hsorted⟩
  have hhead : (s.evaluate clock).scored.head? = some best := by
    rw [hsorted, List.head?_cons]
  rcases Evaluation.exists_of_head?_sorted hhead with ⟨before, after, hscored, hbefore, hafter⟩
  rw [hscored] at hfirst
  -- Nothing before the best program is free, so if it is free, it is the first one that is.
  have hnone : before.find? (fun s => s.cost = 0) = none := by
    rw [List.find?_eq_none]
    intro other hother hzero
    have hlt := hbefore other hother
    rw [of_decide_eq_true hzero] at hlt
    exact absurd hlt (Nat.not_lt_zero _)
  have hbest : best.cost = 0 := by
    rw [List.find?_append, hnone, Option.none_or] at hfirst
    rcases List.mem_cons.mp (List.mem_of_find?_eq_some hfirst) with rfl | hlater
    · exact hfree
    · have hle := hafter first hlater
      rw [hfree] at hle
      exact Charge.ext (Nat.le_zero.mp hle)
  have hsame : first = best := by
    rw [List.find?_append, hnone, Option.none_or, List.find?_cons_of_pos (by simp [hbest])]
      at hfirst
    exact (Option.some.inj hfirst).symm
  -- The lowest base cost is zero, since that of the winner is.
  refine ⟨best, hhead, by rw [hsame], hbest, ?_⟩
  have hmembest : best ∈ (s.evaluate clock).scored := List.mem_of_mem_head? hhead
  have hbase : best.baseCost = 0 := (evaluated_of_mem_scored hmembest).2.1.mp hbest
  rw [Evaluation.bestBaseCost?, List.min?_eq_some_iff]
  constructor
  · exact List.mem_map.mpr ⟨best, hmembest, hbase⟩
  · intro other _
    exact Nat.zero_le _

end State

end TapeBreeder
