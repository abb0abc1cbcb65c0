import TapeBreeder.Proofs.Search.FreeDraw

/-!
# What a winner is worth

A search reports the first program that costs nothing. Where the settings charge every miss, such
a program prints every target. Where they do not, there are searches that report a program which
misses one.

* `Engine.evaluate_of_run` — where every miss is charged, a winner prints every target.
* `chargesEveryMiss_iff_winners_solve` — winners print every target exactly where every miss is
  charged. Nothing checks that, so settings that are accepted need not charge every miss
  (`winner_misses_euro`).
-/

namespace TapeBreeder

/-! ## Winners -/

namespace Engine

variable {σ : Type} [RandomSource σ] {clock : Clock} {monitor : Monitor} {rounds : Nat}
  {e : Engine σ} {r : Run σ} {report : Report}

/-- A report is made of the winner of the last generation. -/
theorem exists_report_of_run (hrun : e.run clock monitor rounds = some r)
    (hresult : r.result = .ok report) :
    ∃ s winner, State.Reachable clock monitor e s ∧ (s.evaluate clock).winner = some winner ∧
      report = s.engine.report clock winner := by
  rcases run_eq_some_iff.mp hrun with ⟨s, t, result, hs, -, hstep, rfl⟩
  obtain rfl : result = .ok report := hresult
  cases State.stepsTo_of_step hstep with
  | found _ _ hwinner => exact ⟨s, _, hs, hwinner, rfl⟩

/-- A reported program prints the target of each example, as long as the settings charge every
miss. -/
theorem evaluate_of_run (hcharges : e.config.cost.ChargesEveryMiss)
    (hrun : e.run clock monitor rounds = some r) (hresult : r.result = .ok report)
    {pair : Example} (hpair : pair ∈ e.examples) :
    report.program.evaluate clock pair.input e.config.cost.timeoutMs = .ok pair.target := by
  rcases exists_report_of_run hrun hresult with ⟨s, winner, hs, hwinner, rfl⟩
  rcases hs.carried with ⟨hconfig, hexamples⟩
  have hcost := (winner_evaluatePopulation hwinner).2
  rw [hexamples, costOptions, hconfig] at hcost
  -- Stagnation only adds runtime, so it leaves alone what is charged.
  have heffective : (e.config.cost.effective s.engine.stagnation.isStagnant).ChargesEveryMiss :=
    hcharges
  exact Program.evaluate_of_baseCost_eq_zero heffective hcost hpair

end Engine

/-! ## Settings -/

theorem Example.mem_ofLists {inputs targets : List String} {i : Nat} {input target : String}
    (hinput : inputs[i]? = some input) (htarget : targets[i]? = some target) :
    Example.mk input target ∈ Example.ofLists inputs targets := by
  apply List.mem_of_getElem? (i := i)
  rw [Example.ofLists, List.getElem?_zipWith, hinput, htarget]

/-- Winners solve their examples exactly where the settings charge every miss: then whatever is
reported prints every target within the budget of scoring, and otherwise some search that is
accepted, from some draws, reports a program that does not. -/
theorem chargesEveryMiss_iff_winners_solve {options : CostOptions}
    (htimeout : options.timeoutMs ≠ 0) :
    options.ChargesEveryMiss ↔
      ∀ (σ : Type) [RandomSource σ] [LawfulSource σ] (clock : Clock) (monitor : Monitor)
        (rounds : Nat) (e : Engine σ) (inputs targets : List String) (r : Engine.Run σ)
        (report : Report),
        e.config.validate = .ok () → e.config.cost = options →
        inputs ≠ [] → inputs.length = targets.length → e.examples = Example.ofLists inputs targets →
        e.run clock monitor rounds = some r → r.result = .ok report →
        ∀ (i : Nat) (input target : String),
          inputs[i]? = some input → targets[i]? = some target →
          report.program.evaluate clock input options.timeoutMs = .ok target := by
  constructor
  · intro hcharges σ _ _ clock monitor rounds e inputs targets r report _ hoptions _ _ hexamples
      hrun hresult i input target hinput htarget
    -- The lists of inputs and targets are what the examples were made of.
    have hmem : Example.mk input target ∈ e.examples := by
      rw [hexamples]
      exact Example.mem_ofLists hinput htarget
    rw [← hoptions] at hcharges ⊢
    have hsolved := Engine.evaluate_of_run hcharges hrun hresult hmem
    exact hsolved
  · intro hsolve
    by_cases hcharges : options.ChargesEveryMiss
    · exact hcharges
    · -- Where some miss is free, there is a search that draws just such a miss.
      rcases FreeDraw.exists_misses htimeout hcharges with ⟨d, hmisses⟩
      rcases d.exists_run with ⟨r, report, hrun, hresult, hprogram⟩
      -- Were the program a solution, as winners are supposed to be, it would print its target.
      have hsolved := hsolve Script .steady (.passive none) 1 d.engine [d.pair.input]
        [d.pair.target] r report (d.validate_config htimeout) rfl (List.cons_ne_nil _ _) rfl rfl
        hrun hresult 0 d.pair.input d.pair.target rfl rfl
      rw [hprogram] at hsolved
      exact absurd hsolved hmisses.evaluate_ne

/-- Printing the target is free under any settings, the usual ones among them. -/
theorem FreeDraw.free_echo :
    (Program.echoTwo.ending .steady {} "ba").charge? {} "ba" = some 0 := by
  rw [Program.ending_echoTwo (by decide)]
  rfl

/-- A search with the usual settings that draws a program which echoes two characters. -/
def FreeDraw.echo : FreeDraw {} where
  size := 4
  numbers := [5, 4, 5, 4]
  program := .echoTwo
  pair := ⟨"ba", "ba"⟩
  drawn := drawn_echoTwo
  loadable := Program.isLoadable_echoTwo
  free := free_echo

/-- The usual settings charge every miss, so the program that is reported does echo. -/
theorem winners_solve_echo :
    ({} : CostOptions).timeoutMs ≠ 0 ∧ ({} : CostOptions).ChargesEveryMiss ∧
      ∃ r report, FreeDraw.echo.engine.run .steady (.passive none) 1 = some r ∧
        r.result = .ok report ∧ report.program.evaluate .steady "ba" 10 = .ok "ba" := by
  have htimeout : ({} : CostOptions).timeoutMs ≠ 0 := by decide
  have hcharges : ({} : CostOptions).ChargesEveryMiss := by decide
  rcases FreeDraw.echo.exists_run with ⟨r, report, hrun, hresult, -⟩
  have hsolved := (chargesEveryMiss_iff_winners_solve htimeout).mp hcharges Script .steady
    (.passive none) 1 FreeDraw.echo.engine ["ba"] ["ba"] r report
    (FreeDraw.echo.validate_config htimeout) rfl (List.cons_ne_nil _ _) rfl rfl hrun hresult 0 "ba"
    "ba" rfl rfl
  have hbudget : ({} : CostOptions).timeoutMs = 10 := rfl
  rw [hbudget] at hsolved
  exact ⟨htimeout, hcharges, r, report, hrun, hresult, hsolved⟩

/-- Settings that charge for lengths and for timeouts, but not for wrong characters. -/
def CostOptions.lenient : CostOptions where
  penalties := { nonAscii := 0, wrongChar := 0, notEqual := 0 }

/-- The distance of code points is charged nothing here, and so a wrong character is free. -/
theorem FreeDraw.free_euro :
    (Program.nul.ending .steady .lenient "a").charge? .lenient "€" = some 0 := by
  have hcharge : pairCharge .lenient "\x00" "€" = 0 := by decide
  rw [Program.ending_nul (by decide) "a", Outcome.charge?, hcharge]

/-- A search for the euro sign, which no program can print, that draws a program which prints
something else. -/
def FreeDraw.euro : FreeDraw .lenient where
  size := 1
  numbers := [4]
  program := .nul
  pair := ⟨"a", "€"⟩
  drawn := drawn_nul
  loadable := Program.isLoadable_nul
  free := free_euro

/-- The lenient settings are accepted, and a search with them reports that program. -/
theorem winner_misses_euro :
    FreeDraw.euro.engine.config.validate = .ok () ∧
      FreeDraw.euro.engine.config.cost = .lenient ∧
      FreeDraw.euro.engine.examples = Example.ofLists ["a"] ["€"] ∧
      ∃ r report, FreeDraw.euro.engine.run .steady (.passive none) 1 = some r ∧
        r.result = .ok report ∧ report.program.evaluate .steady "a" 10 = .ok "\x00" ∧
        report.program.evaluate .steady "a" 10 ≠ .ok "€" := by
  have htimeout : CostOptions.lenient.timeoutMs ≠ 0 := by decide
  rcases FreeDraw.euro.exists_run with ⟨r, report, hrun, hresult, hprogram⟩
  have hprinted : Program.nul.evaluate .steady "a" 10 = .ok "\x00" :=
    Program.evaluate_eq_ok_iff.mpr (Program.ending_nul htimeout "a")
  have hnul : report.program = .nul := hprogram
  rw [← hnul] at hprinted
  refine ⟨FreeDraw.euro.validate_config htimeout, rfl, rfl, r, report, hrun, hresult, hprinted, ?_⟩
  rw [hprinted]
  simp

end TapeBreeder
