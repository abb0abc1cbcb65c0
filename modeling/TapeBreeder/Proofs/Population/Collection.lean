import TapeBreeder.Proofs.Population.BaseCosts

/-!
# What an evaluation collects

An evaluation is collected from the results of scoring, one for each program of a population. It
keeps a program together with its own costs or counts it, and it takes results as they come, so that
the evaluation of one population and then another is put together from those of the two.

* `ScoredProgram.ofResult?` — what is kept of a result.
* `Evaluation.scored_ofCosts`, `Evaluation.winner_ofCosts`, `Evaluation.ofCosts_append` — what is
  collected from any results.
* `scoringResults` — the results for a population; `Clock.behind` measures for programs that stand
  behind others.
* `evaluation_collects_results` — no program is lost, counted twice or given costs of another one.
-/

namespace TapeBreeder

/-! ## Any results -/

/-- What is kept of a program with its base cost and its cost: nothing, if it has none. -/
def ScoredProgram.ofResult? : Program × Cost × Cost → Option ScoredProgram
  | (p, .valid base, .valid cost) => some ⟨p, cost, base⟩
  | _ => none

/-- A program is kept with both of its costs, and these can be read off again. -/
theorem ScoredProgram.ofResult?_eq_some_iff {result : Program × Cost × Cost} {s : ScoredProgram} :
    ofResult? result = some s ↔ result = (s.program, .valid s.baseCost, .valid s.cost) := by
  rcases result with ⟨p, base, cost⟩
  rcases s with ⟨q, charged, total⟩
  cases base with
  | invalid => simp [ofResult?]
  | valid base => cases cost <;> simp [ofResult?, and_comm]

/-- A program with runtime in its cost is kept if it has a cost without. -/
theorem ScoredProgram.map_cost_ofResult? (p : Program) (base : Cost) (options : CostOptions)
    (nanoseconds : Nat) :
    (ofResult? (p, base, base.withRuntime options nanoseconds)).map
        (fun s => (s.program, s.cost)) =
      (base.withRuntime options nanoseconds).total?.map (p, ·) := by
  cases base with
  | invalid => rfl
  | valid total =>
    rcases Cost.exists_withRuntime_valid options nanoseconds total with ⟨charged, hcost, -⟩
    rw [hcost]
    rfl

namespace Evaluation

variable {timeCost : Bool} {results : List (Program × Cost × Cost)}
  {result : Program × Cost × Cost}

/-- A program with costs is kept, in front of the others. -/
theorem ofCosts_cons_of_some {s : ScoredProgram} (h : ScoredProgram.ofResult? result = some s) :
    ofCosts timeCost (result :: results) =
      { ofCosts timeCost results with
        scored := s :: (ofCosts timeCost results).scored
        winner := if s.cost = 0 then some s.program else (ofCosts timeCost results).winner } := by
  rcases result with ⟨p, base, cost⟩
  cases base with
  | invalid => cases h
  | valid base =>
    cases cost with
    | invalid => cases h
    | valid cost =>
      obtain rfl := Option.some.inj h
      rfl

/-- A program without costs is counted. -/
theorem ofCosts_cons_of_none (h : ScoredProgram.ofResult? result = none) :
    ofCosts timeCost (result :: results) =
      { ofCosts timeCost results with invalid := (ofCosts timeCost results).invalid + 1 } := by
  rcases result with ⟨p, base, cost⟩
  cases base with
  | invalid => rfl
  | valid base =>
    cases cost with
    | invalid => rfl
    | valid cost => cases h

/-- The programs with costs are kept, in order. -/
theorem scored_ofCosts (timeCost : Bool) (results : List (Program × Cost × Cost)) :
    (ofCosts timeCost results).scored = results.filterMap ScoredProgram.ofResult? := by
  induction results with
  | nil => rfl
  | cons result results ih =>
    cases h : ScoredProgram.ofResult? result with
    | none => rw [ofCosts_cons_of_none h, List.filterMap_cons_none h, ih]
    | some s => rw [ofCosts_cons_of_some h, List.filterMap_cons_some h, ih]

/-- The winner is the first scored program that costs nothing. -/
theorem winner_ofCosts (timeCost : Bool) (results : List (Program × Cost × Cost)) :
    (ofCosts timeCost results).winner =
      ((ofCosts timeCost results).scored.find? fun s => s.cost = 0).map (·.program) := by
  induction results with
  | nil => rfl
  | cons result results ih =>
    cases h : ScoredProgram.ofResult? result with
    | none => rw [ofCosts_cons_of_none h, ih]
    | some s =>
      rw [ofCosts_cons_of_some h]
      show (if s.cost = 0 then some s.program else (ofCosts timeCost results).winner) =
        ((s :: (ofCosts timeCost results).scored).find? _).map _
      by_cases hfree : s.cost = 0
      · rw [if_pos hfree, List.find?_cons_of_pos (by simpa using hfree), Option.map_some]
      · rw [if_neg hfree, List.find?_cons_of_neg (by simpa using hfree), ih]

/-- Where no program is perfect without a base cost, the winner is the first perfect one. -/
theorem winner_ofCosts_eq_find? (timeCost : Bool)
    (h : ∀ result ∈ results, result.2.2.isPerfect = true → result.2.1 ≠ .invalid) :
    (ofCosts timeCost results).winner =
      (results.find? fun result => result.2.2.isPerfect).map (·.1) := by
  induction results with
  | nil => rfl
  | cons result results ih =>
    rcases List.forall_mem_cons.mp h with ⟨hfirst, hrest⟩
    rcases result with ⟨p, base, cost⟩
    show (cons p base cost (ofCosts timeCost results)).winner = _
    -- A perfect program comes first if it has been kept, which takes a base cost.
    by_cases hperfect : cost.isPerfect = true
    · rw [List.find?_cons_of_pos (by simpa using hperfect), Option.map_some]
      obtain rfl := beq_iff_eq.mp hperfect
      cases base with
      | invalid => exact absurd rfl (hfirst rfl)
      | valid base => rfl
    · rw [List.find?_cons_of_neg (by simpa using hperfect), ← ih hrest]
      cases base with
      | invalid => rfl
      | valid base =>
        cases cost with
        | invalid => rfl
        | valid cost =>
          have hcharged : cost ≠ 0 := by
            rintro rfl
            exact hperfect rfl
          exact if_neg hcharged

/-! ## One population after another -/

/-- One evaluation and then another one, of which the first winner wins. -/
def append (e f : Evaluation) : Evaluation :=
  ⟨e.scored ++ f.scored, e.invalid + f.invalid, e.winner.or f.winner, e.timeCost⟩

instance : Append Evaluation :=
  ⟨append⟩

theorem empty_append (f : Evaluation) : empty f.timeCost ++ f = f := by
  show append _ _ = f
  unfold append empty
  rw [List.nil_append, Nat.zero_add, Option.none_or]

/-- One more program in front of the first evaluation is one more in front of both. -/
theorem cons_append (p : Program) (base cost : Cost) (e f : Evaluation) :
    e.cons p base cost ++ f = (e ++ f).cons p base cost := by
  show append _ _ = (append _ _).cons p base cost
  cases base with
  | invalid =>
    unfold append cons
    rw [Nat.add_right_comm]
  | valid base =>
    cases cost with
    | invalid =>
      unfold append cons
      rw [Nat.add_right_comm]
    | valid cost =>
      unfold append cons
      -- The new program wins on both sides, or it does not count for the winner.
      by_cases hfree : cost = 0
      · simp only [if_pos hfree, List.cons_append, Option.some_or]
      · simp only [if_neg hfree, List.cons_append]

/-- Evaluating runs through the results once, so it can be done in two parts. -/
theorem ofCosts_append (timeCost : Bool) (before behind : List (Program × Cost × Cost)) :
    ofCosts timeCost (before ++ behind) =
      ofCosts timeCost before ++ ofCosts timeCost behind := by
  induction before with
  | nil =>
    have hempty := empty_append (ofCosts timeCost behind)
    rw [timeCost_ofCosts] at hempty
    exact hempty.symm
  | cons result before ih =>
    show (ofCosts timeCost (before ++ behind)).cons _ _ _ =
      (ofCosts timeCost before).cons _ _ _ ++ ofCosts timeCost behind
    rw [ih, cons_append]

end Evaluation

/-! ## Results of scoring -/

/-- The clock as it measures for a population that stands behind `places` other programs. -/
def Clock.behind (clock : Clock) (places : Nat) : Clock :=
  clock.measuring fun generation position => clock.elapsed generation (position + places)

/-- The programs of a population, each with its base cost and with the cost that it has with what is
measured for it. -/
def scoringResults (clock : Clock) (generation : Nat) (options : CostOptions)
    (examples : List Example) (population : List Program) : List (Program × Cost × Cost) :=
  population.mapIdx fun position p =>
    let base := p.baseCost clock options examples
    (p, base.cost, base.cost.withRuntime options (clock.elapsed generation position base.executed))

variable (clock : Clock) (generation : Nat) (options : CostOptions) (examples : List Example)

/-- Evaluating a population is collecting the results of scoring. All that follows is about
results. -/
theorem evaluatePopulation_eq (population : List Program) :
    evaluatePopulation clock generation options examples population =
      .ofCosts options.timeCost (scoringResults clock generation options examples population) :=
  rfl

/-- At which place a program stands counts for its runtime only. -/
theorem Program.baseCost_behind (places : Nat) (p : Program) :
    p.baseCost (clock.behind places) options examples = p.baseCost clock options examples :=
  @Program.baseCost_charging (clock.behind places) clock options rfl options.timeCost examples p

/-- The programs that follow are scored at their own places, behind all that stand in front. -/
theorem scoringResults_append (population others : List Program) :
    scoringResults clock generation options examples (population ++ others) =
      scoringResults clock generation options examples population ++
        scoringResults (clock.behind population.length) generation options examples others := by
  unfold scoringResults
  rw [List.mapIdx_append]
  simp only [Program.baseCost_behind]
  rfl

/-- One population after another is evaluated like each of them by itself. -/
theorem evaluatePopulation_append (population others : List Program) :
    evaluatePopulation clock generation options examples (population ++ others) =
      evaluatePopulation clock generation options examples population ++
        evaluatePopulation (clock.behind population.length) generation options examples others := by
  rw [evaluatePopulation_eq, evaluatePopulation_eq, evaluatePopulation_eq, scoringResults_append,
    Evaluation.ofCosts_append]

/-- Where it is measured the same behind other programs, a population is evaluated the same
there. -/
theorem evaluatePopulation_behind {places : Nat}
    (h : ∀ position symbols, clock.elapsed generation (position + places) symbols =
      clock.elapsed generation position symbols) (others : List Program) :
    evaluatePopulation (clock.behind places) generation options examples others =
      evaluatePopulation clock generation options examples others := by
  have helapsed : (clock.behind places).elapsed generation = clock.elapsed generation := by
    funext position symbols
    exact h position symbols
  unfold evaluatePopulation
  simp only [Program.baseCost_behind, helapsed]

variable {clock generation options examples} {population : List Program}

/-- A cost is a base cost with some runtime, so that one of the two is invalid, or zero, exactly if
the other is. -/
theorem exists_runtime_of_mem_scoringResults {result : Program × Cost × Cost}
    (h : result ∈ scoringResults clock generation options examples population) :
    ∃ nanoseconds, result.2.2 = result.2.1.withRuntime options nanoseconds := by
  unfold scoringResults at h
  rcases List.mem_mapIdx.mp h with ⟨position, _, rfl⟩
  exact ⟨_, rfl⟩

/-- Each scored program is charged what it costs without runtime, and some runtime at most. -/
theorem exists_runtime_of_mem_scored {s : ScoredProgram}
    (h : s ∈ (evaluatePopulation clock generation options examples population).scored) :
    ∃ nanoseconds, (Cost.valid s.baseCost).withRuntime options nanoseconds = .valid s.cost := by
  rw [evaluatePopulation_eq, Evaluation.scored_ofCosts, List.mem_filterMap] at h
  rcases h with ⟨result, hresult, hs⟩
  obtain rfl := ScoredProgram.ofResult?_eq_some_iff.mp hs
  rcases exists_runtime_of_mem_scoringResults hresult with ⟨nanoseconds, hcost⟩
  exact ⟨nanoseconds, hcost.symm⟩

/-- Costs with runtime are collected as base costs are: those of programs that have one, in
population order. -/
theorem map_cost_scored_evaluatePopulation :
    (evaluatePopulation clock generation options examples population).scored.map
        (fun s => (s.program, s.cost)) =
      (scoringResults clock generation options examples population).filterMap
        fun result => result.2.2.total?.map (result.1, ·) := by
  rw [evaluatePopulation_eq, Evaluation.scored_ofCosts, List.map_filterMap]
  apply List.filterMap_congr
  rintro ⟨p, base, cost⟩ hresult
  rcases exists_runtime_of_mem_scoringResults hresult with ⟨nanoseconds, hcost⟩
  obtain rfl : cost = base.withRuntime options nanoseconds := hcost
  exact ScoredProgram.map_cost_ofResult? p base options nanoseconds

namespace Evaluation.SumsUp

variable {base : Program → Cost} {e : Evaluation}

/-- The scored programs are those that have a base cost. -/
theorem map_program_scored (h : e.SumsUp base population) :
    e.scored.map (·.program) = population.filter fun p => !(base p).isInvalid := by
  -- Keeping what has a total and taking the program of it is keeping the program, if it has one.
  have hkept : (fun p => ((base p).total?.map (p, ·)).map (·.1)) =
      Option.guard fun p => !(base p).isInvalid := by
    funext p
    cases hbase : base p with
    | invalid => simp [Cost.total?, Cost.isInvalid, Option.guard, hbase]
    | valid total => simp [Cost.total?, Cost.isInvalid, Option.guard, hbase]
  have hprograms : e.scored.map (·.program) =
      (e.scored.map fun s => (s.program, s.baseCost)).map (·.1) := by
    rw [List.map_map]
    rfl
  rw [hprograms, h.scored, List.map_filterMap, hkept, List.filterMap_eq_filter]

end Evaluation.SumsUp

/-- A population is evaluated by what each of its programs costs, without runtime and with the
runtime that is measured at its place. The scored programs are those with a cost, in population
order, each with its own costs; together with the invalid ones they are as many as the population;
and the winner is the first program that costs nothing. If more programs follow, what is scored and
counted for them is added to that, with the runtime that is measured at their places, and only if
there has been no winner so far is theirs the winner. If the same is measured for them there as
without the others before them, they are evaluated just as by themselves. -/
theorem evaluation_collects_results (clock : Clock) (generation : Nat) (options : CostOptions)
    (examples : List Example) (population others : List Program) :
    let results := scoringResults clock generation options examples population
    let evaluation := evaluatePopulation clock generation options examples population
    let behind := evaluatePopulation (clock.behind population.length) generation options examples
      others
    let whole := evaluatePopulation clock generation options examples (population ++ others)
    evaluation.scored = results.filterMap ScoredProgram.ofResult? ∧
      evaluation.scored.map (·.program) =
        population.filter (fun p => !(p.baseCost clock options examples).cost.isInvalid) ∧
      evaluation.scored.length + evaluation.invalid = population.length ∧
      evaluation.winner = (results.find? fun result => result.2.2.isPerfect).map (·.1) ∧
      whole.scored = evaluation.scored ++ behind.scored ∧
      whole.invalid = evaluation.invalid + behind.invalid ∧
      whole.winner = evaluation.winner.or behind.winner ∧
      ((∀ position symbols, clock.elapsed generation (position + population.length) symbols =
          clock.elapsed generation position symbols) →
        behind = evaluatePopulation clock generation options examples others) := by
  intro results evaluation behind whole
  have hsums := sumsUp_evaluatePopulation clock options examples population generation
  have hwhole : whole = evaluation ++ behind :=
    evaluatePopulation_append clock generation options examples population others
  refine ⟨Evaluation.scored_ofCosts _ results, hsums.map_program_scored, hsums.length_add_invalid,
    ?_, congrArg Evaluation.scored hwhole, congrArg Evaluation.invalid hwhole,
    congrArg Evaluation.winner hwhole, ?_⟩
  · -- A perfect cost comes from a base cost of zero, so no invalid program wins.
    apply Evaluation.winner_ofCosts_eq_find?
    intro result hresult hperfect
    rcases exists_runtime_of_mem_scoringResults hresult with ⟨nanoseconds, hcost⟩
    rw [beq_iff_eq.mp hperfect] at hcost
    rw [Cost.withRuntime_eq_zero_iff.mp hcost.symm]
    exact nofun
  · intro hplaces
    exact evaluatePopulation_behind clock generation options examples hplaces others

/-- Of four programs the second and the last one are invalid, and the third one is perfect. Two by
two, they are evaluated to the same. -/
theorem evaluation_collects_results_mixed :
    let evaluate := fun programs : List String =>
      evaluatePopulation .slow 0 { timeCost := true } [⟨"a", "a"⟩] (programs.map Program.parse)
    (evaluate [".", "]", ",.", "[."]).scored =
        (evaluate [".", "]"]).scored ++ (evaluate [",.", "[."]).scored ∧
      (evaluate [".", "]", ",.", "[."]).invalid = 1 + 1 ∧
      (evaluate [".", "]", ",.", "[."]).winner = some (Program.parse ",.") ∧
      (evaluate [".", "]"]).scored = [⟨Program.parse ".", 100, 99⟩] := by
  intro evaluate
  rcases evaluation_collects_results .slow 0 { timeCost := true } [⟨"a", "a"⟩]
    ([".", "]"].map Program.parse) ([",.", "[."].map Program.parse) with
    ⟨-, -, -, -, hscored, hinvalid, hwinner, hsame⟩
  have hbehind := hsame fun _ _ => rfl
  rw [hbehind] at hscored hinvalid hwinner
  refine ⟨hscored, ?_, ?_, by decide +kernel⟩
  · refine hinvalid.trans ?_
    decide +kernel
  · refine hwinner.trans ?_
    decide +kernel

end TapeBreeder
