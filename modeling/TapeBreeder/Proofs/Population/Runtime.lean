import TapeBreeder.Proofs.Population.Ranking

/-!
# Runtime ranks, and decides nothing

A search that is stuck charges for runtime, which can differ from one measurement to the next. What
it has to rely on does not: who wins, who is invalid and what is the lowest cost so far are told by
the costs without runtime, and runtime only ranks programs that cost something.

* `Evaluation.SumsUp.agree` — what evaluations agree on that measure different runtimes.
* `runtime_decides_nothing` — the same of evaluations with and without runtime.
-/

namespace TapeBreeder

variable (clock : Clock) (generation : Nat) (options : CostOptions) (examples : List Example)

/-- Whatever is measured and whether or not it is charged, an evaluation is told by the costs
without runtime. -/
theorem sumsUp_evaluatePopulation_charging (population : List Program)
    (elapsed : Nat → Nat → Nat → Nat) (timeCost : Bool) :
    (evaluatePopulation (clock.measuring elapsed) generation (options.charging timeCost) examples
      population).SumsUp (fun p => (p.baseCost clock options examples).cost) population := by
  have hbase : ∀ p : Program,
      p.baseCost (clock.measuring elapsed) (options.charging timeCost) examples =
        p.baseCost clock options examples := by
    intro p
    exact @Program.baseCost_charging (clock.measuring elapsed) clock options rfl timeCost examples p
  simp only [← hbase]
  exact sumsUp_evaluatePopulation _ _ _ _ _

/-- A population is evaluated twice, with runtime charged and without, and the runtimes that are
measured may differ. Both evaluations have the same winner, as many invalid programs, the same
scored programs in the same order with the same costs without runtime, and so the same lowest one of
these. Where runtime is charged, a program costs no less than without, and nothing only if it costs
nothing without; else it costs what it costs without. -/
theorem runtime_decides_nothing (population : List Program)
    (elapsed elapsed' : (generation position symbols : Nat) → Nat) :
    let timed := evaluatePopulation (clock.measuring elapsed) generation (options.charging true)
      examples population
    let untimed := evaluatePopulation (clock.measuring elapsed') generation
      (options.charging false) examples population
    timed.winner = untimed.winner ∧ timed.invalid = untimed.invalid ∧
      timed.scored.map (fun s => (s.program, s.baseCost)) =
        untimed.scored.map (fun s => (s.program, s.baseCost)) ∧
      timed.bestBaseCost? = untimed.bestBaseCost? ∧
      (∀ s ∈ timed.scored, s.baseCost ≤ s.cost ∧ (s.cost = 0 ↔ s.baseCost = 0)) ∧
      ∀ s ∈ untimed.scored, s.cost = s.baseCost := by
  intro timed untimed
  -- Both evaluations sum up one and the same population by base costs, which no runtime enters.
  have htimed : timed.SumsUp (fun p => (p.baseCost clock options examples).cost) population :=
    sumsUp_evaluatePopulation_charging clock generation options examples population elapsed true
  have huntimed : untimed.SumsUp (fun p => (p.baseCost clock options examples).cost) population :=
    sumsUp_evaluatePopulation_charging clock generation options examples population elapsed' false
  rcases htimed.agree huntimed with ⟨hwinner, hinvalid, hscored, hbest⟩
  refine ⟨hwinner, hinvalid, hscored, hbest, ?_, ?_⟩
  · intro s hs
    rcases charged_of_mem_scored hs with ⟨hle, hzero, -⟩
    exact ⟨hle, hzero⟩
  · intro s hs
    exact (charged_of_mem_scored hs).2.2 rfl

/-- Settings under which a mismatch costs almost as much as can be and no program may run out of
time. -/
def CostOptions.dear : CostOptions where
  penalties := { notEqual := 18446744073709551515 }
  timeoutPolicy := .disqualify

/-- Seven milliseconds are measured for the program in the first place, fourteen for the one in the
second place, and so on, or else nothing for any of them. What the first program costs reaches the
limit with them and not without. The third one costs nothing all the same, and wins; the others are
invalid. -/
theorem runtime_decides_nothing_near_limit :
    let population := [".", "]", ",.", "+[]"].map Program.parse
    let timed := evaluatePopulation
      (Clock.slow.measuring fun _ position _ => 7000000 * (position + 1)) 0
      (CostOptions.dear.charging true) [⟨"a", "a"⟩] population
    let untimed := evaluatePopulation (Clock.slow.measuring fun _ _ _ => 0) 0
      (CostOptions.dear.charging false) [⟨"a", "a"⟩] population
    timed.winner = untimed.winner ∧ untimed.winner = some (Program.parse ",.") ∧
      timed.invalid = untimed.invalid ∧ untimed.invalid = 2 ∧
      timed.bestBaseCost? = untimed.bestBaseCost? ∧
      (∃ s ∈ timed.scored, s.program = Program.parse "." ∧ s.cost.amount = 2 ^ 64 - 1 ∧
        s.baseCost.amount = 2 ^ 64 - 3 ∧ s.baseCost ≤ s.cost) ∧
      ∃ s ∈ untimed.scored, s.program = Program.parse "." ∧ s.cost = s.baseCost := by
  intro population timed untimed
  rcases runtime_decides_nothing .slow 0 .dear [⟨"a", "a"⟩] population
    (fun _ position _ => 7000000 * (position + 1)) (fun _ _ _ => 0) with
    ⟨hwinner, hinvalid, -, hbest, htimed, huntimed⟩
  have hfirst : ⟨Program.parse ".", .ofNat (2 ^ 64 - 1), .ofNat (2 ^ 64 - 3)⟩ ∈ timed.scored := by
    decide +kernel
  have hfirst' : ⟨Program.parse ".", .ofNat (2 ^ 64 - 3), .ofNat (2 ^ 64 - 3)⟩ ∈
      untimed.scored := by
    decide +kernel
  exact ⟨hwinner, by decide +kernel, hinvalid, by decide +kernel, hbest,
    ⟨_, hfirst, rfl, rfl, rfl, (htimed _ hfirst).1⟩, _, hfirst', rfl, huntimed _ hfirst'⟩

end TapeBreeder
