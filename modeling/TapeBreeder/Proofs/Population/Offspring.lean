import TapeBreeder.Proofs.Breeding.Brackets
import TapeBreeder.Proofs.Population.Evaluation
import TapeBreeder.Proofs.Population.Phases
import TapeBreeder.Proofs.Random.Script
import TapeBreeder.Proofs.Search.Steps

/-!
# What is bred can be loaded

The phases between two generations keep what they leave behind: `breed` is `nextGeneration` with
its survivors, mutants and children before the children are cut down to size.

* `Hereditary`, `surely_inherits` — a property that mutation keeps and that random programs have
  goes through all phases.
* `hereditary_isLoadable` — that of programs which can be loaded does, because mutation leaves over
  no more `]`s than there were and random programs are balanced; of the children of every pair at
  least one can be loaded.
* `offspring_isLoadable` — all of it, of every step of a search that breeds.
-/

namespace TapeBreeder

variable {σ : Type} [RandomSource σ]

/-! ## Phases -/

/-- What is bred from a generation, phase by phase. -/
structure Brood where
  /-- The best of the scored programs, and what fills the places of the invalid ones. -/
  survivors : List Program
  /-- A mutated copy of every survivor. -/
  mutants : List Program
  /-- The children of survivors and mutants. -/
  children : List Program

/-- Breed from a generation with a sorted evaluation. -/
def breed (evolve : EvolveOptions) (mutation : MutateOptions) (evaluation : Evaluation) :
    StateM σ Brood := do
  let kept := cull evaluation.scored evolve.cullRatio
  let survivors ← replaceInvalids mutation kept evaluation.best evaluation.invalid
  let mutants ← mutateAll mutation survivors
  let children ← recombine survivors mutants
  return ⟨survivors, mutants, children⟩

/-- The next generation is what has been bred, cut down to size. -/
theorem nextGeneration_eq (evolve : EvolveOptions) (mutation : MutateOptions)
    (evaluation : Evaluation) :
    (nextGeneration evolve mutation evaluation : StateM σ (List Program)) =
      breed evolve mutation evaluation >>= fun brood =>
        truncate brood.children evolve.populationSize.toNat :=
  rfl

/-- Survivors and mutants that can all be loaded, and two children for each of the survivors, as
many of which can be loaded as there are survivors. -/
structure Brood.IsLoadable (brood : Brood) : Prop where
  survivors : ∀ p ∈ brood.survivors, p.isLoadable
  mutants : ∀ p ∈ brood.mutants, p.isLoadable
  length_mutants : brood.mutants.length = brood.survivors.length
  length_children : brood.children.length = 2 * brood.survivors.length
  children : brood.survivors.length ≤ brood.children.countP (·.isLoadable)

/-! ## Inheritance -/

/-- A property of programs that mutation keeps and that random programs have, and what it makes of
the children of a pair. -/
structure Hereditary (σ : Type) [RandomSource σ] (mutation : MutateOptions) (P : Program → Prop)
    (Q : Program × Program → Prop) : Prop where
  mutate : ∀ p, P p → Surely (p.mutate mutation : StateM σ Program) P
  fresh : ∀ length, length ≠ 0 → Surely (randomProgram length : StateM σ Program) P
  cross : ∀ a b, P a → P b → Surely (a.crossover b : StateM σ (Program × Program)) Q

/-- Survivors and mutants with a property, and children in pairs with another one. -/
structure Brood.Inherits (P : Program → Prop) (Q : Program × Program → Prop) (brood : Brood) :
    Prop where
  survivors : ∀ p ∈ brood.survivors, P p
  mutants : ∀ p ∈ brood.mutants, P p
  length_mutants : brood.mutants.length = brood.survivors.length
  children : ∃ pairs, pairs.length = brood.survivors.length ∧ (∀ pair ∈ pairs, Q pair) ∧
    brood.children = childrenOf pairs

theorem Brood.Inherits.length_children {P : Program → Prop} {Q : Program × Program → Prop}
    {brood : Brood} (h : brood.Inherits P Q) :
    brood.children.length = 2 * brood.survivors.length := by
  rcases h.children with ⟨pairs, hpairs, -, hchildren⟩
  rw [hchildren, length_childrenOf, hpairs]

/-- What holds of the scored programs and goes from programs to what is made of them holds of the
whole brood. -/
theorem surely_inherits {P : Program → Prop} {Q : Program × Program → Prop} (evolve : EvolveOptions)
    {mutation : MutateOptions} (h : Hereditary σ mutation P Q) {evaluation : Evaluation}
    (hscored : ∀ s ∈ evaluation.scored, P s.program) (hbest : P evaluation.best) :
    Surely (breed evolve mutation evaluation : StateM σ Brood) fun brood =>
      brood.survivors.length =
          (cull evaluation.scored evolve.cullRatio).length + evaluation.invalid ∧
        brood.Inherits P Q := by
  have hkept : ∀ p ∈ cull evaluation.scored evolve.cullRatio, P p := by
    intro p hp
    rcases exists_mem_scored_of_mem_cull hp with ⟨s, hs, rfl⟩
    exact hscored s hs
  -- The phases one after another. Each takes what the one before has made sure of.
  refine (surely_replaceInvalids mutation hkept (h.mutate _ hbest) h.fresh _).bind ?_
  rintro survivors ⟨hlength, hsurvivors⟩
  have hmutate : ∀ p ∈ survivors, Surely (p.mutate mutation : StateM σ Program) P := by
    intro p hp
    exact h.mutate p (hsurvivors p hp)
  refine (surely_mutateAll mutation hmutate).bind ?_
  rintro mutants ⟨hmutantsLength, hmutants⟩
  have hcross : ∀ a ∈ survivors, ∀ b ∈ mutants,
      Surely (a.crossover b : StateM σ (Program × Program)) Q := by
    intro a ha b hb
    exact h.cross a b (hsurvivors a ha) (hmutants b hb)
  refine (surely_recombine hcross hmutantsLength).bind ?_
  intro children hchildren
  exact surely_pure ⟨hlength, hsurvivors, hmutants, hmutantsLength, hchildren⟩

/-! ## Programs that can be loaded -/

/-- Survivors have been scored, and so they can be loaded. -/
theorem cull_isLoadable {scored : List ScoredProgram} (h : ∀ s ∈ scored, s.program.isLoadable)
    (ratio : Binary64) : ∀ p ∈ cull scored ratio, p.isLoadable := by
  intro p hp
  rcases exists_mem_scored_of_mem_cull hp with ⟨s, hs, rfl⟩
  exact h s hs

/-- The best program can be loaded as well. Without a scored program it is the empty one. -/
theorem best_isLoadable {evaluation : Evaluation}
    (h : ∀ s ∈ evaluation.scored, s.program.isLoadable) : evaluation.best.isLoadable := by
  unfold Evaluation.best
  cases hhead : evaluation.scored.head? with
  | none => rfl
  | some s => exact h s (List.mem_of_head? hhead)

/-- Mutation keeps programs loadable and random programs are balanced. Crossing keeps only one of
two children loadable for certain, which is why pairs have a property of their own. -/
theorem hereditary_isLoadable (mutation : MutateOptions) :
    Hereditary σ mutation (fun p => p.isLoadable)
      fun pair => pair.1.isLoadable ∨ pair.2.isLoadable where
  mutate _ := surely_isLoadable_mutate mutation
  fresh length _ := (surely_randomProgram length).mono fun _ => Program.isLoadable_of_balanced
  cross _ _ := surely_crossover

/-- If of each pair of children at least one can be loaded, so can as many as there are pairs. -/
theorem length_le_countP_childrenOf {pairs : List (Program × Program)}
    (h : ∀ pair ∈ pairs, pair.1.isLoadable ∨ pair.2.isLoadable) :
    pairs.length ≤ (childrenOf pairs).countP (·.isLoadable) := by
  induction pairs with
  | nil => exact Nat.le_refl _
  | cons pair pairs ih =>
    rcases List.forall_mem_cons.mp h with ⟨hpair, hrest⟩
    have hcount := ih hrest
    rw [childrenOf_cons, List.countP_cons, List.countP_cons, List.length_cons]
    -- Either child counts for its pair; both may.
    rcases hpair with hfirst | hsecond
    · rw [if_pos hfirst]
      omega
    · rw [if_pos hsecond]
      omega

theorem Brood.Inherits.isLoadable {brood : Brood}
    (h : brood.Inherits (fun p => p.isLoadable)
      fun pair => pair.1.isLoadable ∨ pair.2.isLoadable) : brood.IsLoadable where
  survivors := h.survivors
  mutants := h.mutants
  length_mutants := h.length_mutants
  length_children := h.length_children
  children := by
    rcases h.children with ⟨pairs, hpairs, hall, hchildren⟩
    rw [← hpairs, hchildren]
    exact length_le_countP_childrenOf hall

theorem surely_breed (evolve : EvolveOptions) (mutation : MutateOptions)
    {evaluation : Evaluation} (h : ∀ s ∈ evaluation.scored, s.program.isLoadable) :
    Surely (breed evolve mutation evaluation : StateM σ Brood) fun brood =>
      brood.survivors.length =
          (cull evaluation.scored evolve.cullRatio).length + evaluation.invalid ∧
        brood.IsLoadable := by
  refine (surely_inherits evolve (hereditary_isLoadable mutation) h (best_isLoadable h)).mono ?_
  rintro brood ⟨hlength, hinherits⟩
  exact ⟨hlength, hinherits.isLoadable⟩

/-- Whatever a search has come to and whatever is drawn, a step that breeds keeps programs that can
be loaded, fills up with such programs, mutates them into such programs, and crosses them so that
at least one child of each pair is such a program. The next population is drawn from the
children. -/
theorem offspring_isLoadable {clock : Clock} {monitor : Monitor} {s t : State σ}
    (hstep : s.step clock monitor = .next t) (hscored : (s.evaluate clock).scored ≠ []) :
    (∀ p ∈ cull (s.evaluate clock).scored s.engine.config.evolve.cullRatio, p.isLoadable) ∧
    ∃ brood source,
      (breed s.engine.config.evolve s.engine.config.mutation (s.evaluate clock)).run
          s.engine.source = (brood, source) ∧
      brood.survivors.length =
        (cull (s.evaluate clock).scored s.engine.config.evolve.cullRatio).length +
          (s.evaluate clock).invalid ∧
      brood.IsLoadable ∧
      t.population =
        ((truncate brood.children s.engine.config.evolve.populationSize.toNat).run source).1 := by
  have hloadable : ∀ scored ∈ (s.evaluate clock).scored, scored.program.isLoadable := by
    intro scored hmem
    exact isLoadable_of_mem_scored hmem
  have hbrood := surely_breed s.engine.config.evolve s.engine.config.mutation hloadable
    s.engine.source
  rcases hbrood with ⟨hlength, hsound⟩
  refine ⟨cull_isLoadable hloadable _, _, _, rfl, hlength, hsound, ?_⟩
  -- A step with scored programs breeds.
  cases State.stepsTo_of_step hstep with
  | allInvalid _ _ _ hbest => exact absurd (Evaluation.bestBaseCost?_eq_none_iff.mp hbest) hscored
  | bred _ _ _ _ _ =>
    rw [State.population_advance, nextGeneration_eq]
    rfl

/-- A search whose best program has a `[` without partner, among programs that cannot be scored. -/
def State.unclosed : State Script where
  engine :=
    { config := {}
      examples := [⟨"a", "b"⟩]
      source := ⟨[4, 1, 7, 2, 9, 3]⟩
      generation := 3
      stagnation := .start 10
      cancelled := false }
  population :=
    [⟨[.loopClose]⟩, ⟨[.input, .loopOpen, .output]⟩, ⟨[.loopOpen]⟩]
  snapshots := []
  events := []

/-- Only the program that reads and prints is scored. Of the other two, the `]` fails to load, and
the `[` fails when it has to jump. -/
theorem State.evaluate_unclosed :
    State.unclosed.evaluate .steady =
      ⟨[⟨⟨[.input, .loopOpen, .output]⟩, 2, 2⟩], 2, none, false⟩ := by
  have hevaluation : evaluatePopulation .steady 3 State.unclosed.engine.costOptions
      [⟨"a", "b"⟩] State.unclosed.population =
        ⟨[⟨⟨[.input, .loopOpen, .output]⟩, 2, 2⟩], 2, none, false⟩ := by
    decide
  show (evaluatePopulation .steady 3 State.unclosed.engine.costOptions [⟨"a", "b"⟩]
    State.unclosed.population).sorted = _
  rw [hevaluation]
  simp [Evaluation.sorted]

/-- The brood of one program with a `[` without partner and of two that cannot be scored. -/
theorem offspring_isLoadable_unclosed :
    ∃ t brood source, State.unclosed.step .steady (.passive none) = .next t ∧
      (breed {} {} (State.unclosed.evaluate .steady)).run State.unclosed.engine.source =
        (brood, source) ∧
      t.population = ((truncate brood.children 1000).run source).1 ∧
      brood.survivors.length = 3 ∧ brood.children.length = 6 ∧
      3 ≤ brood.children.countP (·.isLoadable) := by
  have hwinner : (State.unclosed.evaluate .steady).winner = none := by
    rw [State.evaluate_unclosed]
  have hnext : ∃ t, State.unclosed.step .steady (.passive none) = .next t :=
    State.exists_next rfl rfl hwinner
  have hscored : (State.unclosed.evaluate .steady).scored ≠ [] := by
    rw [State.evaluate_unclosed]
    simp
  have hkept : (cull (State.unclosed.evaluate .steady).scored
      State.unclosed.engine.config.evolve.cullRatio).length = 1 := by
    rw [State.evaluate_unclosed, cull, List.length_map, List.length_take, keepCount]
    exact Nat.min_eq_right (Nat.le_max_right _ 1)
  have hinvalid : (State.unclosed.evaluate .steady).invalid = 2 := by
    rw [State.evaluate_unclosed]
  rcases hnext with ⟨t, hnext⟩
  rcases offspring_isLoadable hnext hscored with
    ⟨-, brood, source, hbrood, hlength, hsound, hpopulation⟩
  rw [hkept, hinvalid] at hlength
  refine ⟨t, brood, source, hnext, hbrood, hpopulation, hlength, ?_, ?_⟩
  · rw [hsound.length_children, hlength]
  · have hchildren := hsound.children
    rwa [hlength] at hchildren

end TapeBreeder
