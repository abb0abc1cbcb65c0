import TapeBreeder.Proofs.Population.Evaluation
import TapeBreeder.Proofs.Random.Script
import TapeBreeder.Proofs.Search.Runs

/-!
# Searches that report free programs

A search reports a program that costs nothing as soon as it is drawn. Where the settings leave a
miss uncharged, one of three programs misses its target and costs nothing: one that prints a
character too many, one that swaps two, or one that never halts.

* `FreeDraw` — a program that costs nothing for an example, with the draws that lead to it.
* `FreeDraw.exists_misses` — where not every miss is charged, such a program misses its target.
* `FreeDraw.exists_run` — the search that draws it reports it.
-/

namespace TapeBreeder

/-! ## Programs -/

variable {options : CostOptions}

/-- Any budget at all is enough for a few symbols. -/
theorem Clock.exists_symbolsWithin_steady {milliseconds : UInt64} (h : milliseconds ≠ 0) :
    ∃ n, Clock.steady.symbolsWithin milliseconds = n + 5 := by
  have hne : milliseconds.toNat ≠ 0 := by
    intro hzero
    exact h (UInt64.toNat_inj.mp hzero)
  -- A steady clock lets ten thousand symbols pass in a millisecond.
  refine ⟨10000 * milliseconds.toNat - 5, ?_⟩
  show 10000 * milliseconds.toNat = _
  omega

/-- A program that prints one character with code point zero. -/
def Program.nul : Program :=
  ⟨[.output]⟩

/-- A program that prints the first two characters of its input. -/
def Program.echoTwo : Program :=
  ⟨[.input, .output, .input, .output]⟩

/-- A program that moves left for ever. -/
def Program.stuck : Program :=
  ⟨[.increment, .loopOpen, .left, .loopClose, .increment]⟩

theorem Program.isLoadable_nul : Program.nul.isLoadable :=
  rfl

theorem Program.isLoadable_echoTwo : Program.echoTwo.isLoadable :=
  rfl

theorem Program.isLoadable_stuck : Program.stuck.isLoadable :=
  rfl

/-- One symbol is executed within any time at all, and so the program halts. -/
theorem Program.ending_nul (htimeout : options.timeoutMs ≠ 0) (input : String) :
    Program.nul.ending .steady options input = .halted "\x00" := by
  rcases Clock.exists_symbolsWithin_steady htimeout with ⟨n, hn⟩
  unfold ending
  rw [hn]
  rfl

/-- Within any time at all, a steady clock allows for the four symbols of the program. -/
theorem Program.ending_echoTwo (htimeout : options.timeoutMs ≠ 0) :
    Program.echoTwo.ending .steady options "ba" = .halted "ba" := by
  rcases Clock.exists_symbolsWithin_steady htimeout with ⟨n, hn⟩
  unfold ending
  rw [hn]
  rfl

/-- The program that never halts, ready to run. -/
def Code.stuck : Code :=
  ⟨#[.increment, .loopOpen, .left, .loopClose, .increment], ⟨#[none, some 3, none, some 1, none]⟩⟩

/-- In its loop the program comes back to where it was after two symbols. -/
theorem Code.run_stuck (pending : List Char) :
    ∀ budget, (Code.stuck.run budget ⟨2, ⟨#[1], 0⟩, pending, []⟩).outcome = .outOfBudget
  | 0 => rfl
  | 1 => rfl
  | budget + 2 => Code.run_stuck pending budget

/-- The program runs out of every budget, the smallest ones among them. -/
theorem Program.ending_stuck (clock : Clock) (input : String) :
    Program.stuck.ending clock options input = .outOfBudget := by
  unfold ending
  -- The loop is entered after two symbols.
  match clock.symbolsWithin options.timeoutMs with
  | 0 => rfl
  | 1 => rfl
  | budget + 2 => exact Code.run_stuck input.toList budget

/-- Where mismatches have no charge of their own, a character with code point zero is as good as
none. -/
theorem pairCharge_nul (hflat : options.penalties.notEqual = 0)
    (hpolicy : options.policy = .characterDistance)
    (hascii : options.asciiOnly = true → options.penalties.nonAscii = 0) :
    pairCharge options "\x00" "" = 0 := by
  rw [pairCharge_eq_zero_of_ne (by decide)]
  refine ⟨hflat, ?_, ?_⟩
  · -- The distance adds up code points, and this one is zero.
    rw [policyCharge, hpolicy]
    exact Charge.mul_eq_zero_iff.mpr (.inr rfl)
  · intro hasked
    exact Charge.mul_eq_zero_iff.mpr (.inr (hascii hasked))

/-- Where the distance is not charged, two characters in the wrong order are not charged either. -/
theorem pairCharge_swapped (hflat : options.penalties.notEqual = 0)
    (hpolicy : options.policy = .characterDistance → options.penalties.wrongChar = 0) :
    pairCharge options "ba" "ab" = 0 := by
  rw [pairCharge_eq_zero_of_ne (by decide)]
  refine ⟨hflat, ?_, ?_⟩
  · rw [policyCharge]
    cases hcase : options.policy with
    | characterDistance => exact Charge.mul_eq_zero_iff.mpr (.inl (hpolicy hcase))
    | bucketed =>
      -- The two texts have the same length and the same characters.
      show options.penalties.tooShort * Charge.ofNat 0 +
        options.penalties.nonIntersection * Charge.ofNat 0 = 0
      rw [Charge.add_eq_zero_iff, Charge.mul_eq_zero_iff, Charge.mul_eq_zero_iff]
      exact ⟨.inr rfl, .inr rfl⟩
  · intro _
    exact Charge.mul_eq_zero_iff.mpr (.inl rfl)

/-! ## Free programs -/

/-- A program that costs nothing for an example, and the draws that lead to it. -/
structure FreeDraw (options : CostOptions) where
  size : UInt64
  numbers : List Nat
  program : Program
  pair : Example
  drawn : ((randomSymbols size.toNat).run (⟨numbers⟩ : Script)).1 = program.symbols
  loadable : program.isLoadable
  free : (program.ending .steady options pair.input).charge? options pair.target = some 0

namespace FreeDraw

/-- Whether the program does not print the target. -/
def Misses (d : FreeDraw options) : Prop :=
  d.program.ending .steady options d.pair.input ≠ .halted d.pair.target

theorem Misses.evaluate_ne {d : FreeDraw options} (h : d.Misses) :
    d.program.evaluate .steady d.pair.input options.timeoutMs ≠ .ok d.pair.target := by
  intro hevaluate
  exact h (Program.evaluate_eq_ok_iff.mp hevaluate)

/-- The draw of the one symbol. A number below six stands for a symbol by its place among the
six. -/
theorem drawn_nul : ((randomSymbols 1).run (⟨[4]⟩ : Script)).1 = [.output] := by
  rw [randomSymbols]
  show .output :: ((randomSymbols 0).run (⟨[]⟩ : Script)).1 = _
  rw [randomSymbols]
  rfl

/-- The draws of four symbols, each of which leaves the rest of the script to the others. -/
theorem drawn_echoTwo : ((randomSymbols 4).run (⟨[5, 4, 5, 4]⟩ : Script)).1 =
    [.input, .output, .input, .output] := by
  rw [randomSymbols]
  show .input :: ((randomSymbols 3).run (⟨[4, 5, 4]⟩ : Script)).1 = _
  rw [randomSymbols]
  show .input :: .output :: ((randomSymbols 2).run (⟨[5, 4]⟩ : Script)).1 = _
  rw [randomSymbols]
  show .input :: .output :: .input :: ((randomSymbols 1).run (⟨[4]⟩ : Script)).1 = _
  rw [drawn_nul]

/-- The draws of the loop: a six asks for a loop, and the numbers that follow give its length and
its body. -/
theorem drawn_stuck : ((randomSymbols 5).run (⟨[0, 6, 0, 2, 0]⟩ : Script)).1 =
    [.increment, .loopOpen, .left, .loopClose, .increment] := by
  rw [randomSymbols]
  show .increment :: ((randomSymbols 4).run (⟨[6, 0, 2, 0]⟩ : Script)).1 = _
  rw [randomSymbols]
  show .increment :: ([.loopOpen, .left, .loopClose] ++
    ((randomSymbols 1).run (⟨[0]⟩ : Script)).1) = _
  rw [randomSymbols]
  show .increment :: ([.loopOpen, .left, .loopClose] ++
    .increment :: ((randomSymbols 0).run (⟨[]⟩ : Script)).1) = _
  rw [randomSymbols]
  rfl

/-- Distance does not see the character with code point zero. -/
def nul (htimeout : options.timeoutMs ≠ 0) (hflat : options.penalties.notEqual = 0)
    (hpolicy : options.policy = .characterDistance)
    (hascii : options.asciiOnly = true → options.penalties.nonAscii = 0) : FreeDraw options where
  size := 1
  numbers := [4]
  program := .nul
  pair := ⟨"", ""⟩
  drawn := drawn_nul
  loadable := Program.isLoadable_nul
  free := by
    rw [Program.ending_nul htimeout ""]
    exact congrArg some (pairCharge_nul hflat hpolicy hascii)

/-- Buckets do not see the order of characters, and distance sees nothing when it costs nothing. -/
def swapped (htimeout : options.timeoutMs ≠ 0) (hflat : options.penalties.notEqual = 0)
    (hpolicy : options.policy = .characterDistance → options.penalties.wrongChar = 0) :
    FreeDraw options where
  size := 4
  numbers := [5, 4, 5, 4]
  program := .echoTwo
  pair := ⟨"ba", "ab"⟩
  drawn := drawn_echoTwo
  loadable := Program.isLoadable_echoTwo
  free := by
    rw [Program.ending_echoTwo htimeout]
    exact congrArg some (pairCharge_swapped hflat hpolicy)

/-- Running out of time is printing nothing, and nothing may be the target. -/
def stuck (hpolicy : options.timeoutPolicy = .penalize) (hpenalty : options.penalties.timeout = 0) :
    FreeDraw options where
  size := 5
  numbers := [0, 6, 0, 2, 0]
  program := .stuck
  pair := ⟨"", ""⟩
  drawn := drawn_stuck
  loadable := Program.isLoadable_stuck
  free := by
    rw [Program.ending_stuck, Outcome.charge?, hpolicy]
    exact congrArg some (Charge.add_eq_zero_iff.mpr ⟨rfl, hpenalty⟩)

/-- Where not every miss is charged, some program misses its target for free. -/
theorem exists_misses (htimeout : options.timeoutMs ≠ 0) (h : ¬ options.ChargesEveryMiss) :
    ∃ d : FreeDraw options, d.Misses := by
  by_cases htimeouts : options.ChargesTimeouts
  · have hmismatches : ¬ options.ChargesMismatches := by
      intro hmismatches
      exact h ⟨hmismatches, htimeouts⟩
    rw [CostOptions.ChargesMismatches, not_or, Charge.pos_iff, not_not] at hmismatches
    rcases hmismatches with ⟨hflat, hdistance⟩
    by_cases hseen : options.policy = .characterDistance ∧ 0 < options.penalties.wrongChar
    · -- Distance is charged, so it is the character with code point zero that slips through.
      have hascii : options.asciiOnly = true → options.penalties.nonAscii = 0 := by
        intro hasked
        by_cases hpenalty : 0 < options.penalties.nonAscii
        · exact absurd ⟨hseen.1, hseen.2, hasked, hpenalty⟩ hdistance
        · rwa [Charge.pos_iff, not_not] at hpenalty
      refine ⟨.nul htimeout hflat hseen.1 hascii, ?_⟩
      show Program.nul.ending .steady options "" ≠ .halted ""
      rw [Program.ending_nul htimeout ""]
      decide
    · -- Distance is not charged, so that the order of characters does not matter.
      have hwrong : options.policy = .characterDistance → options.penalties.wrongChar = 0 := by
        intro hpolicy
        by_cases hpenalty : 0 < options.penalties.wrongChar
        · exact absurd ⟨hpolicy, hpenalty⟩ hseen
        · rwa [Charge.pos_iff, not_not] at hpenalty
      refine ⟨.swapped htimeout hflat hwrong, ?_⟩
      show Program.echoTwo.ending .steady options "ba" ≠ .halted "ab"
      rw [Program.ending_echoTwo htimeout]
      decide
  · -- Running out of time costs nothing beyond what is missing from the output.
    rw [CostOptions.ChargesTimeouts, not_or, Charge.pos_iff, not_not] at htimeouts
    rcases htimeouts with ⟨hpolicy, hpenalty⟩
    have hpenalize : options.timeoutPolicy = .penalize := by
      cases hcase : options.timeoutPolicy with
      | penalize => rfl
      | disqualify => exact absurd hcase hpolicy
    refine ⟨.stuck hpenalize hpenalty, ?_⟩
    show Program.stuck.ending .steady options "" ≠ .halted ""
    rw [Program.ending_stuck]
    decide

end FreeDraw

/-! ## Searches that report them -/

/-- Settings are accepted if none of the tests of validation fails. Of the weights, one that is not
zero is enough. -/
theorem RunConfig.validate_eq_ok {config : RunConfig} (hsize : ¬ config.evolve.populationSize < 2)
    (hratio : Binary64.ofNat 0 < config.evolve.cullRatio ∧
      config.evolve.cullRatio ≤ Binary64.ofNat 1)
    (hprobability : Binary64.ofNat 0 ≤ config.mutation.loopProbability ∧
      config.mutation.loopProbability ≤ Binary64.ofNat 1)
    (hweight : config.mutation.inPlace ≠ 0) (hscored : config.cost.timeoutMs ≠ 0)
    (hshown : config.evolve.timeoutMs ≠ 0) : config.validate = .ok () := by
  have hweights : ¬ (config.mutation.inPlace = 0 ∧ config.mutation.addition = 0 ∧
      config.mutation.deletion = 0 ∧ config.mutation.none = 0) := by
    rintro ⟨hzero, -⟩
    exact hweight hzero
  have htimeouts : ¬ (config.cost.timeoutMs = 0 ∨ config.evolve.timeoutMs = 0) :=
    not_or.mpr ⟨hscored, hshown⟩
  unfold validate
  rw [if_neg hsize, if_neg (not_not_intro hratio), if_neg (not_not_intro hprobability),
    if_neg hweights, if_neg htimeouts]

namespace FreeDraw

/-- An engine that draws the program first. -/
def engine (d : FreeDraw options) : Engine Script where
  config :=
    { cost := options, evolve := { populationSize := 2, initialProgramSize := d.size } }
  examples := Example.ofLists [d.pair.input] [d.pair.target]
  source := ⟨d.numbers⟩
  generation := 0
  stagnation := .start 10
  cancelled := false

/-- The only setting of the engine that could be refused is the time for scoring. -/
theorem validate_config (d : FreeDraw options) (htimeout : options.timeoutMs ≠ 0) :
    d.engine.config.validate = .ok () := by
  apply RunConfig.validate_eq_ok <;> dsimp only [engine]
  · decide
  · decide +kernel
  · decide +kernel
  · decide
  · exact htimeout
  · decide

/-- The program is free for its example in every generation, whether the search is stagnant or
not. -/
theorem isFree (d : FreeDraw options) (stagnant : Bool) :
    d.program.IsFree .steady (options.effective stagnant) d.engine.examples := by
  intro pair hpair
  rcases List.mem_singleton.mp hpair with rfl
  exact d.free

/-- The program is drawn first. -/
theorem exists_population (d : FreeDraw options) :
    ∃ rest, (State.start (.passive none) d.engine).population = d.program :: rest := by
  have hdrawn : ((randomProgram d.size.toNat).run (⟨d.numbers⟩ : Script)).1 = d.program := by
    show Program.mk ((randomSymbols d.size.toNat).run (⟨d.numbers⟩ : Script)).1 = _
    rw [d.drawn]
  rw [← hdrawn]
  exact ⟨_, rfl⟩

/-- The search reports the program as soon as it is drawn. -/
theorem exists_run (d : FreeDraw options) :
    ∃ r report, d.engine.run .steady (.passive none) 1 = some r ∧ r.result = .ok report ∧
      report.program = d.program := by
  rcases d.exists_population with ⟨rest, hpopulation⟩
  have hwinner :
      ((State.start (.passive none) d.engine).evaluate .steady).winner = some d.program := by
    unfold State.evaluate
    rw [hpopulation]
    apply winner_evaluatePopulation_cons
    exact Program.baseCost_eq_zero_iff.mpr ⟨d.loadable, d.isFree _⟩
  rcases Engine.exists_run_of_winner rfl rfl hwinner with ⟨r, hrun, hresult⟩
  exact ⟨r, _, hrun, hresult, rfl⟩

end FreeDraw

end TapeBreeder
