import TapeBreeder.Proofs.Cost.Sum
import TapeBreeder.Proofs.Machine.Budget

/-!
# Scores under larger budgets

An answer, once given, stays the same when there is more time for it. So all that a larger budget
can change about a score is what the examples cost for which the time was too short.

* `CostOptions.within` — settings with another budget.
* `Program.timesOut` — whether a program runs out of time on an input.
* `Program.baseCost_of_le` — without such inputs, the score is the same under a larger budget.
* `Program.baseCost_eq_add_timesOut` — the examples with such inputs are accounted for apart.
* `answers_outlast_budgets` — what a larger budget leaves as it is, of runs, answers and scores.
-/

namespace TapeBreeder

/-! ## Settings with another budget -/

/-- The settings with a budget of so many milliseconds. -/
def CostOptions.within (options : CostOptions) (milliseconds : UInt64) : CostOptions :=
  { options with timeoutMs := milliseconds }

@[simp] theorem CostOptions.timeoutMs_within (options : CostOptions) (milliseconds : UInt64) :
    (options.within milliseconds).timeoutMs = milliseconds :=
  rfl

/-- What is charged for how a run ended does not depend on the budget that it had. -/
theorem Outcome.charge?_within (options : CostOptions) (milliseconds : UInt64) (target : String)
    (o : Outcome) : o.charge? (options.within milliseconds) target = o.charge? options target := by
  cases o <;> rfl

/-- What is added for runtime depends on the settings, but not on the budget. -/
theorem Cost.withRuntime_within (options : CostOptions) (milliseconds : UInt64) (nanoseconds : Nat)
    (c : Cost) : c.withRuntime (options.within milliseconds) nanoseconds =
      c.withRuntime options nanoseconds := by
  cases c <;> rfl

/-! ## Scores -/

namespace Program

/-- Whether a program has no answer to an input within so many milliseconds. -/
def timesOut (clock : Clock) (p : Program) (milliseconds : UInt64) (input : String) : Bool :=
  p.evaluate clock input milliseconds = .error (.timeout milliseconds)

variable {clock : Clock} {options : CostOptions} {examples : List Example} {p : Program}
  {short long : UInt64}

/-- A program that has an answer did not exhaust its budget, whether it halted or failed. -/
theorem outcome_of_not_timesOut {input : String} (h : p.timesOut clock short input = false) :
    (p.run input (clock.symbolsWithin short)).outcome ≠ .outOfBudget := by
  intro hstuck
  have htimeout : p.evaluate clock input short = .error (.timeout short) :=
    Outcome.answer_eq_timeout_iff.mpr hstuck
  exact of_decide_eq_false h htimeout

/-- Where a program has an answer to every input, it scores the same with more time for it, and as
many symbols are executed. -/
theorem baseCost_of_le (hle : short ≤ long)
    (h : ∀ pair ∈ examples, p.timesOut clock short pair.input = false) :
    p.baseCost clock (options.within long) examples =
      p.baseCost clock (options.within short) examples := by
  have hrun : ∀ pair ∈ examples, p.run pair.input (clock.symbolsWithin long) =
      ⟨(p.run pair.input (clock.symbolsWithin short)).outcome,
        (p.run pair.input (clock.symbolsWithin short)).unspent +
          (clock.symbolsWithin long - clock.symbolsWithin short)⟩ := by
    intro pair hpair
    exact run_of_le (clock.symbolsWithin_mono hle) (outcome_of_not_timesOut (h pair hpair))
  apply baseCost_congr
  · intro pair hpair
    unfold ending
    simp only [CostOptions.timeoutMs_within, Outcome.charge?_within, hrun pair hpair]
  · -- What is added to the budget is left over.
    intro pair hpair
    have hbudget := clock.symbolsWithin_mono hle
    unfold executedOn
    simp only [CostOptions.timeoutMs_within, hrun pair hpair]
    omega

/-- With the same base cost and as many symbols executed, the runtime that is charged is the same as
well. -/
theorem cost_of_le (hle : short ≤ long)
    (h : ∀ pair ∈ examples, p.timesOut clock short pair.input = false) :
    p.cost clock (options.within long) examples = p.cost clock (options.within short) examples := by
  unfold cost
  rw [baseCost_of_le hle h, Cost.withRuntime_within, Cost.withRuntime_within]

/-- The examples on which a program runs out of time can be accounted for apart from the others. -/
theorem baseCost_eq_add_timesOut (milliseconds : UInt64) :
    (p.baseCost clock options examples).cost =
      (p.baseCost clock options
        (examples.filter fun pair => !p.timesOut clock milliseconds pair.input)).cost +
      (p.baseCost clock options
        (examples.filter fun pair => p.timesOut clock milliseconds pair.input)).cost := by
  rw [add_comm, ← baseCost_append]
  exact (baseCost_perm (List.filter_append_perm _ _)).symm

end Program

/-- A run that ends within a budget, by halting or by failing, ends in the same way within a larger
one, and one that exhausts a budget exhausts every smaller one. So it is with answers and the time
for them. Under all settings, a score with more time differs from that with less time by the
examples on which the program runs out of time with less: all others cost the same; and where there
are no such examples, neither does the cost with runtime differ. -/
theorem answers_outlast_budgets (clock : Clock) (p : Program) :
    (∀ (input : String) (budget larger : Nat), budget ≤ larger →
      (∀ output, (p.run input budget).outcome = .halted output →
        (p.run input larger).outcome = .halted output) ∧
      (∀ fault, (p.run input budget).outcome = .failed fault →
        (p.run input larger).outcome = .failed fault) ∧
      ((p.run input larger).outcome = .outOfBudget →
        (p.run input budget).outcome = .outOfBudget)) ∧
    ∀ short long : UInt64, short ≤ long →
      (∀ input : String,
        (∀ output, p.evaluate clock input short = .ok output →
          p.evaluate clock input long = .ok output) ∧
        (∀ fault, p.evaluate clock input short = .error (.brackets fault) →
          p.evaluate clock input long = .error (.brackets fault)) ∧
        (p.evaluate clock input long = .error (.timeout long) →
          p.evaluate clock input short = .error (.timeout short))) ∧
      ∀ (options : CostOptions) (examples : List Example),
        let late := examples.filter fun pair => p.timesOut clock short pair.input
        let others := examples.filter fun pair => !p.timesOut clock short pair.input
        (p.baseCost clock (options.within short) examples).cost =
          (p.baseCost clock (options.within short) others).cost +
            (p.baseCost clock (options.within short) late).cost ∧
        (p.baseCost clock (options.within long) examples).cost =
          (p.baseCost clock (options.within short) others).cost +
            (p.baseCost clock (options.within long) late).cost ∧
        (late = [] → p.cost clock (options.within long) examples =
          p.cost clock (options.within short) examples) := by
  refine ⟨?_, ?_⟩
  · intro input budget larger hle
    refine ⟨?_, ?_, Program.outOfBudget_of_le hle⟩
    · -- A run that ends with an output is not out of budget, which is all that `run_of_le` asks
      -- for.
      intro output houtput
      rw [Program.run_of_le hle (by simp [houtput]), houtput]
    · intro fault hfault
      rw [Program.run_of_le hle (by simp [hfault]), hfault]
  · intro short long hle
    refine ⟨?_, ?_⟩
    · intro input
      refine ⟨?_, ?_, ?_⟩
      · intro output houtput
        rw [Program.evaluate_of_le hle (by simp [houtput]), houtput]
      · intro fault hfault
        rw [Program.evaluate_of_le hle (by simp [hfault]), hfault]
      · intro htimeout
        exact Outcome.answer_eq_timeout_iff.mpr
          (Program.outOfBudget_of_le (clock.symbolsWithin_mono hle)
            (Outcome.answer_eq_timeout_iff.mp htimeout))
    · intro options examples late others
      -- The examples that are not late are answered within the smaller budget, so they cost the
      -- same with more time.
      have hothers : p.baseCost clock (options.within long) others =
          p.baseCost clock (options.within short) others := by
        apply Program.baseCost_of_le hle
        intro pair hpair
        simpa using (List.mem_filter.mp hpair).2
      refine ⟨Program.baseCost_eq_add_timesOut short, ?_, ?_⟩
      · rw [← hothers]
        exact Program.baseCost_eq_add_timesOut short
      · intro hnone
        apply Program.cost_of_le hle
        intro pair hpair
        simpa using List.filter_eq_nil_iff.mp hnone pair hpair

/-- A program that counts the first character down and prints the second one. With ten milliseconds
it gets U+0001 done and not `a`, so that only the score for `a` is another one with three hundred.
At an unclosed `[` a program fails after two symbols, and with more time for it, too. -/
theorem answers_outlast_budgets_countdown :
    (Program.parse ",[-],.").evaluate .slow "\x01x" 300 = .ok "x" ∧
      (Program.parse ",[").evaluate .slow "" 300 = .error (.brackets (.unmatchedOpen 1)) ∧
      (Program.parse ",[-],.").evaluate .slow "ay" 5 = .error (.timeout 5) ∧
      ((Program.parse ",[-],.").baseCost .slow (CostOptions.within {} 10)
          [⟨"\x01x", "x"⟩, ⟨"ay", "y"⟩]).cost ≠ .valid 0 ∧
      ((Program.parse ",[-],.").baseCost .slow (CostOptions.within {} 300)
          [⟨"\x01x", "x"⟩, ⟨"ay", "y"⟩]).cost =
        ((Program.parse ",[-],.").baseCost .slow (CostOptions.within {} 10)
            [⟨"\x01x", "x"⟩]).cost +
          ((Program.parse ",[-],.").baseCost .slow (CostOptions.within {} 300) [⟨"ay", "y"⟩]).cost ∧
      (Program.parse ",[-],.").cost .slow (CostOptions.within {} 300) [⟨"\x01x", "x"⟩] =
        (Program.parse ",[-],.").cost .slow (CostOptions.within {} 10) [⟨"\x01x", "x"⟩] := by
  have hcounts := answers_outlast_budgets .slow (Program.parse ",[-],.")
  have hfails := answers_outlast_budgets .slow (Program.parse ",[")
  have hlong := hcounts.2 10 300 (by decide)
  have hanswer : (Program.parse ",[-],.").evaluate .slow "\x01x" 10 = .ok "x" := by decide +kernel
  have hfault : (Program.parse ",[").evaluate .slow "" 10 =
      .error (.brackets (.unmatchedOpen 1)) := by decide +kernel
  have htimeout : (Program.parse ",[-],.").evaluate .slow "ay" 10 = .error (.timeout 10) := by
    decide +kernel
  have hshort : (Program.parse ",[-],.").timesOut .slow 10 "\x01x" = false := by decide +kernel
  have hlate : (Program.parse ",[-],.").timesOut .slow 10 "ay" = true := by decide +kernel
  have hsplit := (hlong.2 {} [⟨"\x01x", "x"⟩, ⟨"ay", "y"⟩]).2.1
  have hsame := (hlong.2 {} [⟨"\x01x", "x"⟩]).2.2
  simp only [List.filter_cons, hshort, hlate, List.filter_nil] at hsplit hsame
  refine ⟨(hlong.1 "\x01x").1 "x" hanswer, ((hfails.2 10 300 (by decide)).1 "").2.1 _ hfault,
    ((hcounts.2 5 10 (by decide)).1 "ay").2.2 htimeout, ?_, hsplit, hsame rfl⟩
  decide +kernel

end TapeBreeder
