import TapeBreeder.Proofs.Population.Ranking
import TapeBreeder.Proofs.Search.Stagnation
import TapeBreeder.Proofs.Search.Winner

/-!
# Snapshots and selection

A snapshot of a generation tells how many of its programs are invalid, which program is the best and
what it costs. The next population is bred from the same evaluation, so what the snapshot tells can
be held against the population itself.

* `Progress.FitsSelection` — what a snapshot has to say of a population without a winner.
* `State.Visits.exists_next_tellsOf` — a snapshot of a generation that the search goes on from tells
  of a population without a winner.
* `State.Reachable.winner_of_complete` — a last snapshot that shows success tells of a population
  with one, and that one is reported.
* `snapshots_fit_selection` — what both kinds of snapshots say in any search.
-/

namespace TapeBreeder

/-- What a snapshot says about a population that has no winner: how many of its programs are scored
and how many invalid, and, if there are scored ones, which of them is the first of the cheapest,
what it costs, and that the lowest cost without runtime is positive and no higher. -/
structure Progress.FitsSelection {σ : Type} (clock : Clock) (s : State σ) (p : Progress) :
    Prop where
  generation : p.generation = s.engine.generation
  population : p.populationSize = s.population.length
  invalid : p.invalidCount = s.population.countP fun program =>
    (program.baseCost clock s.engine.config.cost s.engine.examples).cost.isInvalid
  scored : p.populationSize = (s.evaluate clock).scored.length + p.invalidCount
  bestCost_none : p.bestCost = none ↔ p.invalidCount = p.populationSize
  bestBaseCost_none : p.bestBaseCost = none ↔ p.invalidCount = p.populationSize
  best : ∀ cost, p.bestCost = some cost → ∃ base program,
    p.bestBaseCost = some base ∧ p.bestProgram = some program ∧
    1 ≤ base ∧ base ≤ cost ∧ (p.timeCost = false → cost = base) ∧
    FirstCheapest (s.costs clock) program cost

variable {σ : Type}

namespace State

/-! ## One population -/

section

variable {clock : Clock} {s : State σ} {best : ScoredProgram} {base : Charge}

/-- The lowest cost without runtime is positive where there is no winner, and it is not above the
lowest cost with runtime. -/
theorem bestBaseCost?_bounds (hwinner : (s.evaluate clock).winner = none)
    (hhead : (s.evaluate clock).scored.head? = some best)
    (hbase : (s.evaluate clock).bestBaseCost? = some base) :
    1 ≤ base ∧ base ≤ best.cost ∧ ((s.evaluate clock).timeCost = false → best.cost = base) := by
  have hmem : best ∈ (s.evaluate clock).scored := List.mem_of_mem_head? hhead
  rw [Evaluation.bestBaseCost?, List.min?_eq_some_iff] at hbase
  rcases hbase with ⟨hlowest, hleast⟩
  rcases List.mem_map.mp hlowest with ⟨lowest, hscored, rfl⟩
  rcases evaluated_of_mem_scored hmem with ⟨hle, -, hfree⟩
  rcases evaluated_of_mem_scored hscored with ⟨-, hzero, hfree'⟩
  -- The best program is first by its cost with runtime, so another one may have the lowest cost
  -- without.
  have hbest : lowest.baseCost ≤ best.baseCost :=
    hleast best.baseCost (List.mem_map.mpr ⟨best, hmem, rfl⟩)
  refine ⟨?_, Nat.le_trans hbest hle, ?_⟩
  · have hne : lowest.baseCost ≠ 0 := by
      intro h
      exact cost_ne_zero_of_winner_eq_none hwinner hscored (hzero.mpr h)
    exact Charge.pos_iff.mpr hne
  · intro htime
    -- Without runtime the first of the cheapest is one of the lowest.
    rcases Evaluation.exists_of_head?_sorted hhead with ⟨before, after, hsplit, hbefore, hafter⟩
    have hcheapest : best.cost ≤ lowest.cost := by
      have hmem' := Evaluation.mem_scored_sorted.mp hscored
      rw [hsplit] at hmem'
      rcases List.mem_append.mp hmem' with hmem' | hmem'
      · exact Nat.le_of_lt (hbefore lowest hmem')
      · rcases List.mem_cons.mp hmem' with rfl | hmem'
        · exact Nat.le_refl _
        · exact hafter lowest hmem'
    rw [hfree' htime] at hcheapest
    rw [hfree htime] at hcheapest ⊢
    exact Charge.ext (Nat.le_antisymm hcheapest hbest)

/-- What a snapshot tells of an evaluation without a winner is what is asked of it. -/
theorem fitsSelection_of_tellsOf {p : Progress} (htells : p.TellsOf clock s)
    (hwinner : (s.evaluate clock).winner = none) : p.FitsSelection clock s := by
  have hlength := length_scored_add_invalid clock s
  -- All programs are invalid exactly if none is scored, since each is one or the other.
  have hnone : (s.evaluate clock).scored = [] ↔ p.invalidCount = p.populationSize := by
    rw [htells.invalidCount, htells.populationSize, ← List.length_eq_zero_iff]
    omega
  refine ⟨htells.generation, htells.populationSize, ?_, ?_, ?_, ?_, ?_⟩
  · rw [htells.invalidCount, invalid_evaluate]
  · rw [htells.invalidCount, htells.populationSize, hlength]
  · rw [htells.bestCost_eq_none_iff, hnone]
  · rw [htells.bestBaseCost, Evaluation.bestBaseCost?_eq_none_iff, hnone]
  · intro cost hcost
    rw [htells.bestCost] at hcost
    rcases Option.map_eq_some_iff.mp hcost with ⟨best, hhead, rfl⟩
    have hsome : ∃ base, (s.evaluate clock).bestBaseCost? = some base := by
      rw [← Option.ne_none_iff_exists', Ne, Evaluation.bestBaseCost?_eq_none_iff]
      exact List.ne_nil_of_mem (List.mem_of_mem_head? hhead)
    rcases hsome with ⟨base, hbase⟩
    rcases bestBaseCost?_bounds hwinner hhead hbase with ⟨hpos, hle, hfree⟩
    refine ⟨base, best.program, ?_, ?_, hpos, hle, ?_, firstCheapest_of_head? hhead⟩
    · rw [htells.bestBaseCost, hbase]
    · rw [htells.bestProgram, hhead, Option.map_some]
    · rw [htells.timeCost]
      exact hfree

end

/-! ## The snapshots of a search -/

variable [RandomSource σ] {clock : Clock} {monitor : Monitor} {e : Engine σ} {s t : State σ}
  {p : Progress}

theorem winner_of_next (h : s.step clock monitor = .next t) :
    (s.evaluate clock).winner = none := by
  cases stepsTo_of_step h <;> assumption

/-- Before its end, a search has shown nothing but its start and generations that it goes on from,
none of which has a winner. -/
theorem Reachable.tellsOf_of_mem (ht : Reachable clock monitor e t) (hp : p ∈ t.snapshots) :
    p.phase = .initializing ∨ p.phase = .evaluating ∧
      ∃ s, Reachable clock monitor e s ∧ p.TellsOf clock s ∧
        (s.evaluate clock).winner = none := by
  induction ht with
  | start =>
    rcases start_snapshot monitor e with ⟨q, hsnapshots, hphase⟩
    rw [hsnapshots] at hp
    obtain rfl := List.mem_singleton.mp hp
    exact .inl hphase
  | next hs hstep ih =>
    rcases next_snapshot hstep with ⟨-, q, hsnapshots, hphase, htells, -⟩
    rw [hsnapshots] at hp
    rcases List.mem_cons.mp hp with rfl | hp
    · exact .inr ⟨hphase, _, hs, htells, winner_of_next hstep⟩
    · exact ih hp

/-- A snapshot of a generation that the search goes on from tells of a state without a winner, at
any point of the search. -/
theorem Visits.exists_next_tellsOf (ht : Visits clock monitor e t) (hp : p ∈ t.snapshots)
    (hphase : p.phase = .evaluating) :
    ∃ s, Reachable clock monitor e s ∧ p.TellsOf clock s ∧ (s.evaluate clock).winner = none := by
  have hbefore : ∀ u, Reachable clock monitor e u → p ∈ u.snapshots →
      ∃ s, Reachable clock monitor e s ∧ p.TellsOf clock s ∧
        (s.evaluate clock).winner = none := by
    intro u hu hmem
    rcases hu.tellsOf_of_mem hmem with hstart | ⟨-, htells⟩
    · simp [hphase] at hstart
    · exact htells
  cases ht with
  | between ht => exact hbefore t ht hp
  | last hs hstep =>
    rcases finished_snapshot hstep with ⟨q, hsnapshots, hq⟩
    rw [hsnapshots] at hp
    rcases List.mem_cons.mp hp with rfl | hp
    · -- The last snapshot is of another kind.
      rcases hq with hstopped | ⟨hcomplete, -⟩ <;> simp_all
    · exact hbefore _ hs hp

/-- A snapshot that shows success is the last one, and what it tells of is reported. -/
theorem Reachable.winner_of_complete {result : Except SearchError Report}
    (hs : Reachable clock monitor e s) (hstep : s.step clock monitor = .finished t result)
    (hp : p ∈ t.snapshots) (hphase : p.phase = .complete) :
    ∃ winner, (s.evaluate clock).winner = some winner ∧ p.TellsOf clock s ∧
      result = .ok (s.engine.report clock winner) := by
  -- Success is not shown before the end.
  have hlast : p ∉ s.snapshots := by
    intro hmem
    rcases hs.tellsOf_of_mem hmem with hstart | ⟨hevaluating, -⟩ <;> simp_all
  cases stepsTo_of_step hstep with
  | cancelled _ =>
    rcases List.mem_cons.mp hp with rfl | hp
    · cases hphase
    · exact absurd hp hlast
  | limitReached _ _ =>
    rcases List.mem_cons.mp hp with rfl | hp
    · cases hphase
    · exact absurd hp hlast
  | found _ _ hwinner =>
    rcases List.mem_cons.mp hp with rfl | hp
    · exact ⟨_, hwinner, ⟨rfl, rfl, rfl, rfl, rfl, rfl, rfl⟩, rfl⟩
    · exact absurd hp hlast

end State

/-! ## Whole searches -/

variable [RandomSource σ]

/-- In every search, a snapshot of a generation that the search goes on from fits its population:
the programs are either scored or invalid, the two lowest costs are missing together exactly if all
of them are invalid, and otherwise the lowest cost without runtime is at least one and no higher
than the lowest cost, which it equals where no runtime is charged; the program that is shown is the
first of the cheapest ones in population order. A snapshot of success shows two costs of zero and
the program that the run reports. -/
theorem snapshots_fit_selection (clock : Clock) (monitor : Monitor) (e : Engine σ) :
    (∀ t, State.Visits clock monitor e t → ∀ p ∈ t.snapshots, p.phase = .evaluating →
      ∃ s, State.Reachable clock monitor e s ∧ p.FitsSelection clock s) ∧
    ∀ rounds r, e.run clock monitor rounds = some r →
      (∀ p ∈ r.snapshots, p.phase = .evaluating →
        ∃ s, State.Reachable clock monitor e s ∧ p.FitsSelection clock s) ∧
      ∀ p ∈ r.snapshots, p.phase = .complete →
        ∃ report, r.result = .ok report ∧ p.bestCost = some 0 ∧ p.bestBaseCost = some 0 ∧
          p.bestProgram = some report.program := by
  have hfits : ∀ t, State.Visits clock monitor e t → ∀ p ∈ t.snapshots, p.phase = .evaluating →
      ∃ s, State.Reachable clock monitor e s ∧ p.FitsSelection clock s := by
    intro t ht p hp hphase
    rcases ht.exists_next_tellsOf hp hphase with ⟨s, hs, htells, hwinner⟩
    exact ⟨s, hs, State.fitsSelection_of_tellsOf htells hwinner⟩
  refine ⟨hfits, ?_⟩
  intro rounds r hrun
  rcases Engine.run_eq_some_iff.mp hrun with ⟨s, t, result, hs, -, hstep, rfl⟩
  constructor
  · intro p hp
    exact hfits t (.last hs hstep) p (List.mem_reverse.mp hp)
  · intro p hp hphase
    rcases hs.winner_of_complete hstep (List.mem_reverse.mp hp) hphase with
      ⟨winner, hwinner, htells, rfl⟩
    rcases State.best_of_winner hwinner with ⟨best, hhead, hprogram, hcost, hbase⟩
    refine ⟨_, rfl, ?_, ?_, ?_⟩
    · rw [htells.bestCost, hhead, Option.map_some, hcost]
    · rw [htells.bestBaseCost, hbase]
    · rw [htells.bestProgram, hhead, Option.map_some, hprogram]
      rfl

theorem Engine.exists_complete_of_run {clock : Clock} {monitor : Monitor} {rounds : Nat}
    {e : Engine σ} {r : Engine.Run σ} {report : Report}
    (hrun : e.run clock monitor rounds = some r) (hresult : r.result = .ok report) :
    ∃ p ∈ r.snapshots, p.phase = .complete := by
  rcases Engine.run_eq_some_iff.mp hrun with ⟨s, t, result, hs, -, hstep, rfl⟩
  obtain rfl : result = .ok report := hresult
  cases State.stepsTo_of_step hstep with
  | found _ _ _ => exact ⟨_, List.mem_reverse.mpr List.mem_cons_self, rfl⟩

/-- The first population of a search costs 99 without runtime, and no less with it; all of its
second population is invalid, and so it has no costs at all. Another search finds a program in its
first population, and shows the one that it reports. -/
theorem snapshots_fit_selection_split_and_echo :
    (∃ t p₁ p₂ cost, State.Visits .steady (.passive none) Engine.split t ∧
      p₁ ∈ t.snapshots ∧ p₁.phase = .evaluating ∧ p₁.bestBaseCost = some 99 ∧
      p₁.bestCost = some cost ∧ 99 ≤ cost ∧
      p₂ ∈ t.snapshots ∧ p₂.phase = .evaluating ∧ p₂.bestCost = none ∧
      p₂.invalidCount = p₂.populationSize) ∧
    ∃ r p report, FreeDraw.echo.engine.run .steady (.passive none) 1 = some r ∧
      p ∈ r.snapshots ∧ p.phase = .complete ∧ r.result = .ok report ∧ p.bestCost = some 0 ∧
      p.bestProgram = some report.program := by
  constructor
  · rcases Engine.exists_visits_split with ⟨t, p₀, p₁, p₂, p₃, p₄, ht, hsnapshots, -,
      ⟨hphase₁, hbest₁⟩, ⟨hphase₂, hbest₂⟩, -, -⟩
    have hfits := (snapshots_fit_selection .steady (.passive none) Engine.split).1 t ht
    have hmem : ∀ p ∈ [p₀, p₁, p₂, p₃, p₄], p ∈ t.snapshots := by
      intro p hp
      rw [← hsnapshots] at hp
      exact List.mem_reverse.mp hp
    have hp₁ := hmem p₁ (by simp)
    have hp₂ := hmem p₂ (by simp)
    rcases hfits p₁ hp₁ hphase₁ with ⟨s₁, -, hfits₁⟩
    rcases hfits p₂ hp₂ hphase₂ with ⟨s₂, -, hfits₂⟩
    have hall := hfits₂.bestBaseCost_none.mp hbest₂
    cases hcost : p₁.bestCost with
    | none =>
      -- The two costs of a snapshot are missing together.
      have hnone := hfits₁.bestBaseCost_none.mpr (hfits₁.bestCost_none.mp hcost)
      rw [hbest₁] at hnone
      cases hnone
    | some cost =>
      rcases hfits₁.best cost hcost with ⟨base, program, hbase, -, -, hle, -, -⟩
      obtain rfl := Option.some.inj (hbest₁.symm.trans hbase)
      exact ⟨t, p₁, p₂, cost, ht, hp₁, hphase₁, hbest₁, hcost, hle, hp₂, hphase₂,
        hfits₂.bestCost_none.mpr hall, hall⟩
  · rcases FreeDraw.echo.exists_run with ⟨r, report, hrun, hresult, -⟩
    rcases Engine.exists_complete_of_run hrun hresult with ⟨p, hp, hphase⟩
    rcases ((snapshots_fit_selection .steady (.passive none) FreeDraw.echo.engine).2 1 r hrun).2 p
      hp hphase with ⟨reported, hreported, hcost, -, hprogram⟩
    exact ⟨r, p, reported, hrun, hp, hphase, hreported, hcost, hprogram⟩

end TapeBreeder
