import TapeBreeder.Proofs.Population.Offspring
import TapeBreeder.Proofs.Search.Trace

/-!
# The populations of a search

A search begins with a population of the size that its settings say, and later ones may be smaller:
each survivor, and each program that takes the place of an invalid one, has two children, and they
are cut down to that size.

* `surely_crossover_ne_nil` — no operation makes an empty program of programs that are not empty.
* `surely_length_nextGeneration` — how many programs are bred.
* `EvolveOptions.Admits` — what is kept of populations: it holds at the start
  (`surely_firstPopulation`) and is kept by every step (`State.admits_next`).
* `population_bounds` — all of it, of every population of a search.
-/

namespace TapeBreeder

variable {σ : Type}

/-! ## Scored programs -/

/-- The best of the scored programs is one of them. -/
theorem Evaluation.exists_mem_scored_best {evaluation : Evaluation} (h : evaluation.scored ≠ []) :
    ∃ s ∈ evaluation.scored, s.program = evaluation.best := by
  rcases List.exists_cons_of_ne_nil h with ⟨s, rest, hscored⟩
  refine ⟨s, ?_, ?_⟩
  · rw [hscored]
    exact List.mem_cons_self
  · rw [best, hscored]
    rfl

theorem State.mem_population_of_mem_scored {clock : Clock} {s : State σ} {scored : ScoredProgram}
    (h : scored ∈ (s.evaluate clock).scored) : scored.program ∈ s.population :=
  (mem_scored_evaluatePopulation (Evaluation.mem_scored_sorted.mp h)).1

variable [RandomSource σ]

/-! ## Programs that are not empty -/

/-- A random program of at least one symbol is not empty, since at least one symbol is drawn. -/
theorem surely_randomProgram_ne_nil {length : Nat} (h : length ≠ 0) :
    Surely (randomProgram length : StateM σ Program) fun p => p.symbols ≠ [] := by
  have hsymbols : Surely (randomSymbols length : StateM σ (List Symbol)) (· ≠ []) := by
    refine (surely_drawn (fun _ _ => surely_any _) length).mono ?_
    intro symbols hdrawn
    exact hdrawn.ne_nil h
  exact surely_randomProgram_of hsymbols

/-- Beyond the end of the one row, all of it is taken; at its beginning, nothing of the other row is
dropped. -/
theorem take_append_drop_ne_nil {xs ys : List Symbol} (hx : xs ≠ []) (hy : ys ≠ [])
    (point : Nat) : xs.take point ++ ys.drop point ≠ [] := by
  intro h
  rcases List.append_eq_nil_iff.mp h with ⟨htake, hdrop⟩
  rcases List.take_eq_nil_iff.mp htake with hpoint | hempty
  · rw [hpoint, List.drop_zero] at hdrop
    exact hy hdrop
  · exact hx hempty

/-- Crossing never leaves a child empty: each takes its beginning from one parent and its end from
the other. -/
theorem surely_crossover_ne_nil {a b : Program} (ha : a.symbols ≠ []) (hb : b.symbols ≠ []) :
    Surely (a.crossover b : StateM σ (Program × Program)) fun pair =>
      pair.1.symbols ≠ [] ∧ pair.2.symbols ≠ [] := by
  unfold Program.crossover
  split
  · refine surely_pure ?_
    constructor
    · exact List.append_ne_nil_of_left_ne_nil ha b.symbols
    · exact List.append_ne_nil_of_left_ne_nil hb a.symbols
  · refine (surely_any _).bind ?_
    intro point _
    refine surely_pure ?_
    constructor
    · exact take_append_drop_ne_nil ha hb point
    · exact take_append_drop_ne_nil hb ha point

/-- Programs that are not empty have offspring that is not empty, in all phases of breeding. -/
theorem hereditary_ne_nil (mutation : MutateOptions) :
    Hereditary σ mutation (fun p => p.symbols ≠ [])
      fun pair => pair.1.symbols ≠ [] ∧ pair.2.symbols ≠ [] where
  mutate p _ := (surely_mutate mutation p).mono fun _ h => h.1
  fresh _ := surely_randomProgram_ne_nil
  cross _ _ := surely_crossover_ne_nil

/-! ## Numbers of programs -/

/-- Nothing is asked of programs. -/
theorem hereditary_true (mutation : MutateOptions) :
    Hereditary σ mutation (fun _ => True) fun _ => True where
  mutate _ _ := surely_any _
  fresh _ _ := surely_any _
  cross _ _ _ _ := surely_any _

/-- Whatever an evaluation says, two children are bred for each program that is kept and for each
one that is invalid, as far as the size of the population allows. -/
theorem surely_length_nextGeneration (evolve : EvolveOptions) (mutation : MutateOptions)
    (evaluation : Evaluation) :
    Surely (nextGeneration evolve mutation evaluation : StateM σ (List Program))
      fun population => population.length = min evolve.populationSize.toNat
        (2 * ((cull evaluation.scored evolve.cullRatio).length + evaluation.invalid)) := by
  rw [nextGeneration_eq]
  have htrivial : ∀ s ∈ evaluation.scored, True := by
    intro _ _
    trivial
  refine (surely_inherits evolve (hereditary_true mutation) htrivial trivial).bind ?_
  rintro brood ⟨hlength, hinherits⟩
  refine (surely_truncate brood.children _).mono ?_
  rintro population ⟨hpopulation, -⟩
  rw [hpopulation, hinherits.length_children, hlength]

/-- If no scored program is empty, none is in the whole brood. The best one, whose mutants fill
places, is a scored one. -/
theorem surely_breed_ne_nil (evolve : EvolveOptions) (mutation : MutateOptions)
    {evaluation : Evaluation} (hscored : evaluation.scored ≠ [])
    (hne : ∀ s ∈ evaluation.scored, s.program.symbols ≠ []) :
    Surely (breed evolve mutation evaluation : StateM σ Brood) fun brood =>
      ∀ p ∈ brood.survivors ++ brood.mutants ++ brood.children, p.symbols ≠ [] := by
  rcases Evaluation.exists_mem_scored_best hscored with ⟨s, hs, hbest⟩
  have hbest : evaluation.best.symbols ≠ [] := by
    rw [← hbest]
    exact hne s hs
  refine (surely_inherits evolve (hereditary_ne_nil mutation) hne hbest).mono ?_
  rintro brood ⟨-, hinherits⟩
  rcases hinherits.children with ⟨pairs, -, hpairs, hchildren⟩
  rw [hchildren, List.forall_mem_append, List.forall_mem_append]
  exact ⟨⟨hinherits.survivors, hinherits.mutants⟩, forall_mem_childrenOf hpairs⟩

theorem surely_nextGeneration_ne_nil (evolve : EvolveOptions) (mutation : MutateOptions)
    {evaluation : Evaluation} (hscored : evaluation.scored ≠ [])
    (hne : ∀ s ∈ evaluation.scored, s.program.symbols ≠ []) :
    Surely (nextGeneration evolve mutation evaluation : StateM σ (List Program))
      fun population => ∀ p ∈ population, p.symbols ≠ [] := by
  rw [nextGeneration_eq]
  refine (surely_breed_ne_nil evolve mutation hscored hne).bind ?_
  intro brood hbrood
  refine (surely_truncate brood.children _).mono ?_
  rintro population ⟨-, hkept⟩ p hp
  -- Only children are kept, which are part of the brood.
  exact hbrood p (List.mem_append_right _ (hkept.subset hp))

/-! ## Populations of a search -/

/-- Whether a population may occur under some settings: it has at least two programs and at most as
many as they say, and none that is empty unless they ask for empty programs to begin with. -/
structure EvolveOptions.Admits (evolve : EvolveOptions) (population : List Program) : Prop where
  two_le : 2 ≤ population.length
  length_le : population.length ≤ evolve.populationSize.toNat
  ne_nil : 1 ≤ evolve.initialProgramSize → ∀ p ∈ population, p.symbols ≠ []

theorem RunConfig.two_le_populationSize {config : RunConfig} (h : config.validate = .ok ()) :
    2 ≤ config.evolve.populationSize.toNat := by
  by_cases hsize : config.evolve.populationSize < 2
  · unfold validate at h
    rw [if_pos hsize] at h
    cases h
  · exact UInt64.le_iff_toNat_le.mp (UInt64.not_lt.mp hsize)

/-- A first population is as large as the settings say and has programs of the length that they
say. -/
theorem surely_firstPopulation (e : Engine σ) (hsize : 2 ≤ e.config.evolve.populationSize.toNat) :
    Surely e.firstPopulation e.config.evolve.Admits := by
  have hprogram : Surely (randomProgram e.config.evolve.initialProgramSize.toNat : StateM σ Program)
      fun p => 1 ≤ e.config.evolve.initialProgramSize → p.symbols ≠ [] := by
    intro source hpos
    have hlength : 1 ≤ e.config.evolve.initialProgramSize.toNat := UInt64.le_iff_toNat_le.mp hpos
    exact surely_randomProgram_ne_nil (Nat.one_le_iff_ne_zero.mp hlength) source
  refine (surely_repeatedly hprogram _).mono ?_
  rintro population ⟨hlength, hne⟩
  constructor
  · rw [hlength]
    exact hsize
  · exact Nat.le_of_eq hlength
  · intro hpos p hp
    exact hne p hp hpos

/-- At least one program is kept, so at least two are bred. -/
theorem surely_admits_nextGeneration {evolve : EvolveOptions} (mutation : MutateOptions)
    {evaluation : Evaluation} (hsize : 2 ≤ evolve.populationSize.toNat)
    (hscored : evaluation.scored ≠ [])
    (hne : 1 ≤ evolve.initialProgramSize → ∀ s ∈ evaluation.scored, s.program.symbols ≠ []) :
    Surely (nextGeneration evolve mutation evaluation : StateM σ (List Program))
      evolve.Admits := by
  intro source
  have hlength := surely_length_nextGeneration evolve mutation evaluation source
  have hkept := length_cull_pos hscored evolve.cullRatio
  constructor
  · omega
  · omega
  · intro hpos
    exact surely_nextGeneration_ne_nil evolve mutation hscored (hne hpos) source

namespace State

variable {clock : Clock} {monitor : Monitor} {e : Engine σ} {s t : State σ}

/-- Where a program is valid, the next population is bred. -/
theorem drawn_bred (hstep : s.step clock monitor = .next t)
    (hscored : (s.evaluate clock).scored ≠ []) :
    (t.population, t.engine.source) = (nextGeneration s.engine.config.evolve
      s.engine.config.mutation (s.evaluate clock)).run s.engine.source := by
  cases stepsTo_of_step hstep with
  | allInvalid _ _ _ hbest => exact absurd (Evaluation.bestBaseCost?_eq_none_iff.mp hbest) hscored
  | bred _ _ _ _ _ => rfl

/-- Where none is, it is drawn anew. -/
theorem drawn_anew (hstep : s.step clock monitor = .next t)
    (hscored : (s.evaluate clock).scored = []) :
    (t.population, t.engine.source) = s.engine.firstPopulation.run s.engine.source := by
  cases stepsTo_of_step hstep with
  | allInvalid _ _ _ _ => rfl
  | bred _ _ _ hbest _ => exact absurd hscored (Evaluation.scored_ne_nil_of_bestBaseCost? hbest)

/-- One generation leads from an admitted population to another, whether it is bred or drawn
anew. -/
theorem admits_next (hsize : 2 ≤ s.engine.config.evolve.populationSize.toNat)
    (hs : s.engine.config.evolve.Admits s.population) (hstep : s.step clock monitor = .next t) :
    s.engine.config.evolve.Admits t.population := by
  -- Where no program could be scored, the population is drawn anew, and what was known of the old
  -- one is of no use.
  by_cases hscored : (s.evaluate clock).scored = []
  · have hdrawn := surely_firstPopulation s.engine hsize s.engine.source
    rw [← drawn_anew hstep hscored] at hdrawn
    exact hdrawn
  · have hne : 1 ≤ s.engine.config.evolve.initialProgramSize →
        ∀ scored ∈ (s.evaluate clock).scored, scored.program.symbols ≠ [] := by
      intro hpos scored hmem
      exact hs.ne_nil hpos _ (mem_population_of_mem_scored hmem)
    have hbred := surely_admits_nextGeneration s.engine.config.mutation hsize hscored hne
      s.engine.source
    rw [← drawn_bred hstep hscored] at hbred
    exact hbred

/-- Every population of a search is admitted, by induction on its generations. -/
theorem Reachable.admits (hsize : 2 ≤ e.config.evolve.populationSize.toNat)
    (hs : Reachable clock monitor e s) : e.config.evolve.Admits s.population := by
  induction hs with
  | start => exact surely_firstPopulation e hsize e.source
  | next hs hstep ih =>
    have hconfig := hs.carried.1
    rw [← hconfig] at hsize ih ⊢
    exact admits_next hsize ih hstep

end State

/-- Whatever is drawn and measured, each population of a search whose settings are accepted has at
least two programs and at most as many as the settings say. One that is bred has two programs for
each that is kept and for each that was invalid, cut down to the size in the settings. Where a
search begins with programs of at least one symbol, none of its populations has an empty program,
and neither have the survivors, mutants and children in between. -/
theorem population_bounds {clock : Clock} {monitor : Monitor} {e : Engine σ}
    (hvalid : e.config.validate = .ok ()) {s : State σ}
    (hs : State.Reachable clock monitor e s) :
    (2 ≤ s.population.length ∧ s.population.length ≤ e.config.evolve.populationSize.toNat) ∧
    (∀ t, s.step clock monitor = .next t → (s.evaluate clock).scored ≠ [] →
      t.population.length = min e.config.evolve.populationSize.toNat
        (2 * ((cull (s.evaluate clock).scored e.config.evolve.cullRatio).length +
          (s.evaluate clock).invalid))) ∧
    (1 ≤ e.config.evolve.initialProgramSize →
      (∀ p ∈ s.population, p.symbols ≠ []) ∧
      ((s.evaluate clock).scored ≠ [] → ∀ (source : σ) (brood : Brood),
        brood = ((breed e.config.evolve e.config.mutation (s.evaluate clock)).run source).1 →
        ∀ p ∈ brood.survivors ++ brood.mutants ++ brood.children, p.symbols ≠ [])) := by
  have hsize := RunConfig.two_le_populationSize hvalid
  have hadmits := hs.admits hsize
  -- The settings are those of the beginning in every state.
  have hconfig := hs.carried.1
  refine ⟨⟨hadmits.two_le, hadmits.length_le⟩, ?_, ?_⟩
  · intro t hstep hscored
    have hlength := surely_length_nextGeneration s.engine.config.evolve s.engine.config.mutation
      (s.evaluate clock) s.engine.source
    rw [← State.drawn_bred hstep hscored] at hlength
    rw [← hconfig]
    exact hlength
  · intro hpos
    have hne := hadmits.ne_nil hpos
    refine ⟨hne, ?_⟩
    rintro hscored source brood rfl
    have hscoredNe : ∀ scored ∈ (s.evaluate clock).scored, scored.program.symbols ≠ [] := by
      intro scored hmem
      exact hne _ (State.mem_population_of_mem_scored hmem)
    exact surely_breed_ne_nil e.config.evolve e.config.mutation hscored hscoredNe source

/-- An engine whose search begins with three programs of one symbol. -/
def Engine.trio : Engine Script where
  config := { evolve := { populationSize := 3, initialProgramSize := 1 } }
  examples := [⟨"", "a"⟩]
  source := ⟨[]⟩
  generation := 0
  stagnation := .start 10
  cancelled := false

/-- Three programs that print nothing, at the price of one missing character each. -/
theorem Engine.evaluate_start_trio :
    (State.start (.passive none) Engine.trio).evaluate .steady =
      ⟨List.replicate 3 ⟨⟨[.increment]⟩, 256, 256⟩, 0, none, false⟩ := by
  have hpopulation : (State.start (.passive none) Engine.trio).population =
      List.replicate 3 ⟨[.increment]⟩ := by
    rw [State.population_start_of_one rfl (by decide)]
    rfl
  have hevaluation : evaluatePopulation .steady 0 Engine.trio.costOptions Engine.trio.examples
      (List.replicate 3 ⟨[.increment]⟩) =
        ⟨List.replicate 3 ⟨⟨[.increment]⟩, 256, 256⟩, 0, none, false⟩ := by
    decide
  unfold State.evaluate
  rw [hpopulation]
  show (evaluatePopulation .steady 0 Engine.trio.costOptions Engine.trio.examples
    (List.replicate 3 ⟨[.increment]⟩)).sorted = _
  rw [hevaluation, Evaluation.sorted, List.mergeSort_of_pairwise (by decide)]

/-- Of three programs one is kept, so that the next population has two, neither of them empty. -/
theorem population_bounds_trio :
    Engine.trio.config.validate = .ok () ∧ 1 ≤ Engine.trio.config.evolve.initialProgramSize ∧
      (State.start (.passive none) Engine.trio).population.length ≤ 3 ∧
      ∃ t, (State.start (.passive none) Engine.trio).step .steady (.passive none) = .next t ∧
        t.population.length = 2 ∧ ∀ p ∈ t.population, p.symbols ≠ [] := by
  have hvalid : Engine.trio.config.validate = .ok () := by decide +kernel
  have hpos : 1 ≤ Engine.trio.config.evolve.initialProgramSize := by decide
  have hstart : State.Reachable .steady (.passive none) Engine.trio
      (State.start (.passive none) Engine.trio) := .start
  have hnext : ∃ t, (State.start (.passive none) Engine.trio).step .steady (.passive none) =
      .next t := by
    apply State.exists_next rfl rfl
    rw [Engine.evaluate_start_trio]
  rcases hnext with ⟨t, hnext⟩
  have hscored : ((State.start (.passive none) Engine.trio).evaluate .steady).scored ≠ [] := by
    rw [Engine.evaluate_start_trio]
    exact List.cons_ne_nil _ _
  have hkept : (cull ((State.start (.passive none) Engine.trio).evaluate .steady).scored
      Engine.trio.config.evolve.cullRatio).length = 1 := by
    rw [Engine.evaluate_start_trio, length_cull]
    decide +kernel
  have hinvalid : ((State.start (.passive none) Engine.trio).evaluate .steady).invalid = 0 := by
    rw [Engine.evaluate_start_trio]
  have hlength := (population_bounds hvalid hstart).2.1 t hnext hscored
  rw [hkept, hinvalid] at hlength
  refine ⟨hvalid, hpos, (population_bounds hvalid hstart).1.2, t, hnext, hlength, ?_⟩
  exact ((population_bounds hvalid (hstart.next hnext)).2.2 hpos).1

end TapeBreeder
