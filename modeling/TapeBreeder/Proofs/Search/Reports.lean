import TapeBreeder.Proofs.Machine.Budget
import TapeBreeder.Proofs.Population.BaseCosts
import TapeBreeder.Proofs.Search.Winner

/-!
# What a report shows

A search reports the first program of a population that costs nothing, and runs it once more on
every input, with a time limit of its own, to show what it prints. Where every miss is charged and
that limit is no shorter than the one for scoring, all that is shown are the targets.

* `Program.Solves` — a program prints every target. `Program.Solves.mono` gives it more time.
* `Program.isPerfect_baseCost_iff_solves` — the programs that cost nothing are those.
* `State.exists_first_solver` — the winner of a population is the first of them.
* `Engine.samples_report` — what the report on such a program shows.
* `report_shows_targets` — all of it, of every search that ends with a report.
-/

namespace TapeBreeder

/-! ## Programs that solve their examples -/

/-- Whether a program prints every target within so many milliseconds. -/
def Program.Solves (clock : Clock) (milliseconds : UInt64) (examples : List Example)
    (p : Program) : Prop :=
  ∀ pair ∈ examples, p.evaluate clock pair.input milliseconds = .ok pair.target

section

variable {clock : Clock} {options : CostOptions} {examples : List Example} {p : Program}

/-- A program that prints the targets in time does so with more time. -/
theorem Program.Solves.mono {short long : UInt64} (h : p.Solves clock short examples)
    (hle : short ≤ long) : p.Solves clock long examples := by
  intro pair hpair
  have hsolved := h pair hpair
  have hends : p.evaluate clock pair.input short ≠ .error (.timeout short) := by
    rw [hsolved]
    intro hstuck
    cases hstuck
  rw [Program.evaluate_of_le hle hends]
  exact hsolved

/-- With an example to solve, a program that solves it can be loaded. -/
theorem Program.isPerfect_baseCost_iff_solves (h : options.ChargesEveryMiss)
    (hne : examples ≠ []) :
    (p.baseCost clock options examples).cost.isPerfect ↔
      p.Solves clock options.timeoutMs examples := by
  rw [Cost.isPerfect, beq_iff_eq, baseCost_eq_zero_iff, isFree_iff_prints h]
  constructor
  · rintro ⟨-, hsolves⟩
    exact hsolves
  · intro hsolves
    rcases List.exists_mem_of_ne_nil examples hne with ⟨pair, hpair⟩
    exact ⟨isLoadable_of_evaluate (hsolves pair hpair), hsolves⟩

end

/-! ## Reports -/

variable {σ : Type} {clock : Clock}

/-- Runtime has no part in what makes a program the winner, and neither has the order in which the
programs are sorted. -/
theorem State.exists_first_solver {s : State σ} {winner : Program}
    (hcharges : s.engine.config.cost.ChargesEveryMiss) (hne : s.engine.examples ≠ [])
    (hwinner : (s.evaluate clock).winner = some winner) :
    ∃ before after, s.population = before ++ winner :: after ∧
      winner.Solves clock s.engine.config.cost.timeoutMs s.engine.examples ∧
      ∀ q ∈ before, ¬ q.Solves clock s.engine.config.cost.timeoutMs s.engine.examples := by
  -- Winners are found by their costs, which under these settings tell whether a program prints the
  -- targets.
  have hsolves : ∀ p : Program,
      (p.baseCost clock s.engine.config.cost s.engine.examples).cost.isPerfect ↔
        p.Solves clock s.engine.config.cost.timeoutMs s.engine.examples := by
    intro p
    exact Program.isPerfect_baseCost_iff_solves hcharges hne
  rw [winner_evaluate, List.find?_eq_some_iff_append] at hwinner
  rcases hwinner with ⟨hperfect, before, after, hpopulation, hbefore⟩
  refine ⟨before, after, hpopulation, (hsolves winner).mp hperfect, ?_⟩
  intro q hq hsolved
  have hfirst := hbefore q hq
  rw [(hsolves q).mpr hsolved] at hfirst
  cases hfirst

/-- No sample of a program that solves its examples in time is the text of an error. -/
theorem Engine.samples_report {e : Engine σ} {p : Program} {inputs targets : List String}
    (hexamples : e.examples = Example.ofLists inputs targets)
    (hsolves : p.Solves clock e.config.evolve.timeoutMs e.examples) :
    (e.report clock p).samples = List.zipWith Sample.mk inputs targets := by
  have hsample : ∀ pair ∈ e.examples, e.sample clock p pair.input =
      ⟨pair.input, pair.target⟩ := by
    intro pair hpair
    rw [sample, hsolves pair hpair]
  have hsamples : (e.report clock p).samples =
      e.examples.map fun pair => ⟨pair.input, pair.target⟩ :=
    List.map_congr_left hsample
  rw [hsamples, hexamples, Example.ofLists, List.map_zipWith]

variable [RandomSource σ] {monitor : Monitor} {e : Engine σ}

/-- Where every mismatch and every timeout is charged, and programs are shown with no less time than
they are scored with, a search that ends with a report has found the first program of its last
population, in the order of that population, that prints every target. It costs nothing, and the
report shows just the targets: the program answers every input within the time limit for showing.
No engine is created without examples, of which a program that cannot be loaded would solve all. -/
theorem report_shows_targets {inputs targets : List String} {rounds : Nat} {r : Engine.Run σ}
    {report : Report} (hinputs : inputs ≠ []) (hlength : inputs.length = targets.length)
    (hexamples : e.examples = Example.ofLists inputs targets)
    (hflat : 0 < e.config.cost.penalties.notEqual)
    (htimeout : 0 < e.config.cost.penalties.timeout ∨ e.config.cost.timeoutPolicy = .disqualify)
    (hbudget : e.config.cost.timeoutMs ≤ e.config.evolve.timeoutMs)
    (hrun : e.run clock monitor rounds = some r) (hresult : r.result = .ok report) :
    report.cost = 0 ∧
    (∃ s before after, State.Reachable clock monitor e s ∧
      s.engine.generation = report.generation ∧
      s.population = before ++ report.program :: after ∧
      report.program.Solves clock e.config.cost.timeoutMs e.examples ∧
      ∀ q ∈ before, ¬ q.Solves clock e.config.cost.timeoutMs e.examples) ∧
    report.samples = List.zipWith Sample.mk inputs targets ∧
    report.program.Solves clock e.config.evolve.timeoutMs e.examples := by
  have hcharges : e.config.cost.ChargesEveryMiss := ⟨.inl hflat, htimeout.symm⟩
  -- The two lists are equally long, so neither is empty.
  have hne : e.examples ≠ [] := by
    rw [hexamples, Example.ofLists, Ne, List.zipWith_eq_nil_iff]
    rintro (hnil | hnil)
    · exact hinputs hnil
    · rw [hnil] at hlength
      exact hinputs (List.length_eq_zero_iff.mp hlength)
  rcases Engine.exists_report_of_run hrun hresult with ⟨s, winner, hs, hwinner, rfl⟩
  rcases hs.carried with ⟨hconfig, hsame⟩
  -- The settings and the examples are the same in all states of a search.
  rw [← hconfig] at hcharges hbudget ⊢
  rw [← hsame] at hexamples hne ⊢
  rcases State.exists_first_solver hcharges hne hwinner with
    ⟨before, after, hpopulation, hsolves, hbefore⟩
  have hshown := hsolves.mono hbudget
  refine ⟨rfl, ?_, Engine.samples_report hexamples hshown, hshown⟩
  exact ⟨s, before, after, hs, rfl, hpopulation, hsolves, hbefore⟩

/-- The program that echoes two characters is scored with ten milliseconds and shown with more. -/
theorem report_shows_targets_echo :
    0 < FreeDraw.echo.engine.config.cost.penalties.notEqual ∧
      0 < FreeDraw.echo.engine.config.cost.penalties.timeout ∧
      FreeDraw.echo.engine.config.cost.timeoutMs ≤ FreeDraw.echo.engine.config.evolve.timeoutMs ∧
      ∃ r report, FreeDraw.echo.engine.run .steady (.passive none) 1 = some r ∧
        r.result = .ok report ∧ report.cost = 0 ∧ report.samples = [⟨"ba", "ba"⟩] ∧
        report.program.Solves .steady FreeDraw.echo.engine.config.evolve.timeoutMs
          [⟨"ba", "ba"⟩] := by
  have hflat : 0 < FreeDraw.echo.engine.config.cost.penalties.notEqual := by decide
  have htimeout : 0 < FreeDraw.echo.engine.config.cost.penalties.timeout := by decide
  have hbudget : FreeDraw.echo.engine.config.cost.timeoutMs ≤
      FreeDraw.echo.engine.config.evolve.timeoutMs := by decide
  have hexamples : FreeDraw.echo.engine.examples = Example.ofLists ["ba"] ["ba"] := rfl
  rcases FreeDraw.echo.exists_run with ⟨r, report, hrun, hresult, -⟩
  rcases report_shows_targets (List.cons_ne_nil _ _) rfl hexamples hflat (.inl htimeout) hbudget
    hrun hresult with ⟨hcost, -, hsamples, hshown⟩
  exact ⟨hflat, htimeout, hbudget, r, report, hrun, hresult, hcost, hsamples, hshown⟩

end TapeBreeder
