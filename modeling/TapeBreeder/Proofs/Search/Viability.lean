import TapeBreeder.Proofs.Cost.Exact
import TapeBreeder.Proofs.Machine.Faults
import TapeBreeder.Proofs.Population.BaseCosts
import TapeBreeder.Proofs.Search.Populations
import TapeBreeder.Proofs.Search.Snapshots

/-!
# Fresh populations are viable

A random program is balanced, a balanced program halts or runs out of time, and where that does not
disqualify, either has a cost. So a population that is drawn anew has no invalid program, and a
search never draws two populations anew in a row.

* `Program.baseCost_ne_invalid_of_balanced` — a balanced program has a cost.
* `State.IsFresh` — the population before the first generation (`State.isFresh_start`), and the one
  after a generation without a valid program (`State.isFresh_next`).
* `State.IsFresh.viable` — such a population has valid programs only.
* `fresh_populations_viable` — what this means for the snapshots of a search.
-/

namespace TapeBreeder

/-! ## Balanced programs -/

namespace Program

variable {clock : Clock} {options : CostOptions} {examples : List Example} {p : Program}

/-- A balanced program never fails at its brackets: it has a jump table, and each `[` has its
partner. -/
theorem evaluate_ne_brackets_of_balanced (h : Balanced p.symbols) (input : String)
    (milliseconds : UInt64) (fault : BracketError) :
    p.evaluate clock input milliseconds ≠ .error (.brackets fault) := by
  intro hfault
  rcases evaluate_eq_brackets_cases hfault with herror | ⟨table, k, hbuild, -, hopen, hnone⟩
  · rcases isLoadable_iff_exists_build.mp (isLoadable_of_balanced h) with ⟨table, hbuild⟩
    rw [hbuild] at herror
    cases herror
  · have hpartner := (partner?_eq_none_of_jump? hbuild hopen hnone).1
    exact partner?_ne_none_of_balanced h hopen hpartner

/-- Where running out of time does not disqualify, faulty brackets are the only way to have no
cost. -/
theorem baseCost_ne_invalid_of_balanced (hpolicy : options.timeoutPolicy = .penalize)
    (h : Balanced p.symbols) : (p.baseCost clock options examples).cost ≠ .invalid := by
  intro hinvalid
  rcases baseCost_eq_invalid_iff.mp hinvalid with ⟨fault, hbuild⟩ | hbrackets | ⟨hdisqualify, -⟩
  · rcases isLoadable_iff_exists_build.mp (isLoadable_of_balanced h) with ⟨table, htable⟩
    rw [hbuild] at htable
    cases htable
  · rcases hbrackets with ⟨pair, -, fault, hfault⟩
    exact evaluate_ne_brackets_of_balanced h pair.input options.timeoutMs fault hfault
  · rw [hpolicy] at hdisqualify
    cases hdisqualify

end Program

/-! ## Fresh populations -/

variable {σ : Type}

namespace State

/-- No program is scored exactly where no program of the population has a cost. -/
theorem scored_eq_nil_iff {clock : Clock} {s : State σ} :
    (s.evaluate clock).scored = [] ↔ ∀ p ∈ s.population,
      (p.baseCost clock s.engine.config.cost s.engine.examples).cost = .invalid := by
  unfold evaluate
  rw [Evaluation.scored_sorted_eq_nil_iff]
  exact (sumsUp_evaluation rfl s).scored_eq_nil_iff

theorem winner_eq_none_of_scored_eq_nil {clock : Clock} {s : State σ}
    (h : (s.evaluate clock).scored = []) : (s.evaluate clock).winner = none := by
  rw [winner_evaluate, List.find?_eq_none]
  intro p hp hperfect
  rw [scored_eq_nil_iff.mp h p hp] at hperfect
  cases hperfect

/-- Whether the population of a state has been drawn, rather than bred. -/
structure IsFresh (s : State σ) : Prop where
  ne_nil : s.population ≠ []
  balanced : ∀ p ∈ s.population, Balanced p.symbols

/-- All programs of a fresh population have a cost, and there are some. -/
theorem IsFresh.viable {clock : Clock} {s : State σ} (h : s.IsFresh)
    (hpolicy : s.engine.config.cost.timeoutPolicy = .penalize) :
    (s.evaluate clock).invalid = 0 ∧ (s.evaluate clock).scored ≠ [] := by
  have hinvalid : (s.evaluate clock).invalid = 0 := by
    rw [invalid_evaluate, List.countP_eq_zero]
    intro p hp
    rw [Cost.isInvalid, beq_iff_eq]
    exact Program.baseCost_ne_invalid_of_balanced hpolicy (h.balanced p hp)
  refine ⟨hinvalid, ?_⟩
  intro hnone
  -- Without scored programs the population would be empty.
  have hlength := s.length_scored_add_invalid clock
  rw [hnone, hinvalid] at hlength
  exact h.ne_nil (List.length_eq_zero_iff.mp hlength.symm)

variable [RandomSource σ] {clock : Clock} {monitor : Monitor} {e : Engine σ} {s t : State σ}

/-- Whatever is drawn, a first population is not empty and its programs are balanced. -/
theorem surely_firstPopulation_fresh (e : Engine σ)
    (hsize : 2 ≤ e.config.evolve.populationSize.toNat) :
    Surely e.firstPopulation fun population =>
      population ≠ [] ∧ ∀ p ∈ population, Balanced p.symbols := by
  refine (surely_repeatedly (surely_randomProgram _) _).mono ?_
  rintro population ⟨hlength, hbalanced⟩
  refine ⟨?_, hbalanced⟩
  apply List.ne_nil_of_length_pos
  omega

theorem isFresh_start (monitor : Monitor) (hsize : 2 ≤ e.config.evolve.populationSize.toNat) :
    (start monitor e).IsFresh := by
  rcases surely_firstPopulation_fresh e hsize e.source with ⟨hne, hbalanced⟩
  exact ⟨hne, hbalanced⟩

/-- Where nothing has been scored, the next population is drawn anew, and so it is fresh as well. -/
theorem isFresh_next (hsize : 2 ≤ s.engine.config.evolve.populationSize.toNat)
    (hstep : s.step clock monitor = .next t) (hscored : (s.evaluate clock).scored = []) :
    t.IsFresh := by
  have hfresh := surely_firstPopulation_fresh s.engine hsize s.engine.source
  rw [← drawn_anew hstep hscored] at hfresh
  exact ⟨hfresh.1, hfresh.2⟩

/-- A generation without a valid program is not the first one, and the next one has valid programs
only. -/
theorem Reachable.viable (hsize : 2 ≤ e.config.evolve.populationSize.toNat)
    (hpolicy : e.config.cost.timeoutPolicy = .penalize) (hs : Reachable clock monitor e s)
    (hscored : (s.evaluate clock).scored = []) :
    1 ≤ s.engine.generation ∧ ∀ t, s.step clock monitor = .next t →
      (t.evaluate clock).invalid = 0 ∧ (t.evaluate clock).scored ≠ [] := by
  constructor
  · -- The state of the first generation is the start, whose population is fresh.
    by_cases hfirst : s.engine.generation = 0
    · obtain rfl := hs.eq_of_generation_eq .start hfirst
      have hviable : _ ∧ ((State.start monitor e).evaluate clock).scored ≠ [] :=
        (isFresh_start monitor hsize).viable hpolicy
      exact absurd hscored hviable.2
    · exact Nat.one_le_iff_ne_zero.mpr hfirst
  · intro t hstep
    have hconfig := hs.carried.1
    have hfresh : t.IsFresh := by
      apply isFresh_next _ hstep hscored
      rw [hconfig]
      exact hsize
    apply hfresh.viable
    rw [(hs.next hstep).carried.1]
    exact hpolicy

end State

/-! ## Snapshots -/

/-- What snapshots tell of populations that are drawn anew: the first one has no invalid program, a
generation without a valid program is not the first one, and the next one has valid programs only.
-/
structure ViableTrace (snapshots : List Progress) : Prop where
  first : ∀ p ∈ snapshots, p.IsScored → p.generation = 0 → p.invalidCount = 0
  one_le : ∀ p ∈ snapshots, p.phase = .evaluating → p.bestCost = none → 1 ≤ p.generation
  next : ∀ p ∈ snapshots, p.phase = .evaluating → p.bestCost = none →
    ∀ q ∈ snapshots, q.IsScored → q.generation = p.generation + 1 →
      q.invalidCount = 0 ∧ q.bestCost ≠ none

/-- The statement does not mention the order of snapshots, so it holds of a run, which shows them
the other way round. -/
theorem ViableTrace.reverse {snapshots : List Progress} (h : ViableTrace snapshots) :
    ViableTrace snapshots.reverse := by
  constructor
  · intro p hp
    exact h.first p (List.mem_reverse.mp hp)
  · intro p hp
    exact h.one_le p (List.mem_reverse.mp hp)
  · intro p hp hphase hbest q hq
    exact h.next p (List.mem_reverse.mp hp) hphase hbest q (List.mem_reverse.mp hq)

/-- Each snapshot is traced back to the state that it tells of, and what is known of that state is
read off. -/
theorem State.Visits.viableTrace [RandomSource σ] {clock : Clock} {monitor : Monitor}
    {e : Engine σ} {t : State σ} (hsize : 2 ≤ e.config.evolve.populationSize.toNat)
    (hpolicy : e.config.cost.timeoutPolicy = .penalize) (ht : Visits clock monitor e t) :
    ViableTrace t.snapshots := by
  constructor
  · intro p hp hscored hfirst
    rcases ht.exists_tellsOf hp hscored with ⟨s, hs, htells⟩
    -- There is only one state of the first generation.
    rw [htells.generation] at hfirst
    obtain rfl := hs.eq_of_generation_eq .start hfirst
    rw [htells.invalidCount]
    exact ((isFresh_start monitor hsize).viable hpolicy).1
  · intro p hp hphase hbest
    rcases ht.exists_tellsOf hp (.inl hphase) with ⟨s, hs, htells⟩
    rw [htells.generation]
    exact (hs.viable hsize hpolicy (htells.bestCost_eq_none_iff.mp hbest)).1
  · intro p hp hphase hbest q hq hscored hgeneration
    rcases ht.exists_tellsOf hp (.inl hphase) with ⟨s, hs, htells⟩
    rcases ht.exists_tellsOf hq hscored with ⟨u, hu, hutells⟩
    rw [hutells.generation, htells.generation] at hgeneration
    -- The state before that of the second snapshot is the one of the first snapshot.
    rcases hu.exists_step (by omega) with ⟨s', hs', hstep⟩
    have hsame : s'.engine.generation = s.engine.generation := by
      have hcount := generation_next hstep
      omega
    obtain rfl := hs'.eq_of_generation_eq hs hsame
    have hviable := (hs.viable hsize hpolicy (htells.bestCost_eq_none_iff.mp hbest)).2 u hstep
    rw [hutells.invalidCount, Ne, hutells.bestCost_eq_none_iff]
    exact hviable

/-- Where running out of time does not disqualify, a population that is drawn anew has no invalid
program, whatever is drawn, asked for and measured. So the first generation has none, and after a
generation without a valid program, which is never the first one, the next one has none: no two
populations in a row are drawn anew. The snapshots tell so, at every point of a search and of a run
that has ended. -/
theorem fresh_populations_viable [RandomSource σ] (clock : Clock) (monitor : Monitor)
    (e : Engine σ) (hvalid : e.config.validate = .ok ())
    (hpolicy : e.config.cost.timeoutPolicy = .penalize) :
    (∀ t, State.Visits clock monitor e t → ViableTrace t.snapshots) ∧
    (∀ rounds r, e.run clock monitor rounds = some r → ViableTrace r.snapshots) ∧
    ∀ s, State.Reachable clock monitor e s → (s.evaluate clock).scored = [] →
      1 ≤ s.engine.generation ∧ ∀ t, s.step clock monitor = .next t →
        (t.evaluate clock).invalid = 0 ∧ (t.evaluate clock).scored ≠ [] := by
  have hsize := RunConfig.two_le_populationSize hvalid
  refine ⟨?_, ?_, ?_⟩
  · intro t ht
    exact ht.viableTrace hsize hpolicy
  · intro rounds r hrun
    rcases Engine.exists_visits_of_run hrun with ⟨t, ht, hsnapshots⟩
    rw [hsnapshots]
    exact (ht.viableTrace hsize hpolicy).reverse
  · intro s hs hscored
    exact hs.viable hsize hpolicy hscored

/-- The program that prints one character, behind a loop which it never enters. -/
def Program.flagged : Program :=
  ⟨[.loopOpen, .increment, .loopClose, .output]⟩

/-- A search that draws this program twice, crosses it with a copy that has moved by a place, and
then draws it twice once more. -/
def Engine.split : Engine Script where
  config :=
    { evolve :=
        { populationSize := 2
          initialProgramSize := 4
          generationLimit := none
          stagnationGenerations := 1 } }
  examples := [⟨"", "a"⟩]
  source := ⟨[6, 0, 0, 4, 6, 0, 0, 4, 100, 0, 9007199254740991, 0, 1, 0, 6, 0, 0, 4, 6, 0, 0, 4]⟩
  generation := 0
  stagnation := .start 1
  cancelled := false

namespace Engine

/-- The draw of the loop and the output, twice; the rest of the script is left for later. -/
theorem firstPopulation_split {e : Engine Script} (h : e.config = split.config)
    (numbers : List Nat) :
    e.firstPopulation.run ⟨6 :: 0 :: 0 :: 4 :: 6 :: 0 :: 0 :: 4 :: numbers⟩ =
      ([.flagged, .flagged], ⟨numbers⟩) := by
  have hlast (numbers : List Nat) :
      (randomSymbols 1).run (⟨4 :: numbers⟩ : Script) = ([.output], ⟨numbers⟩) := by
    rw [randomSymbols]
    show (.output :: ((randomSymbols 0).run (⟨numbers⟩ : Script)).1,
      ((randomSymbols 0).run (⟨numbers⟩ : Script)).2) = _
    rw [randomSymbols]
    rfl
  have hprogram (numbers : List Nat) :
      (randomProgram 4).run (⟨6 :: 0 :: 0 :: 4 :: numbers⟩ : Script) = (.flagged, ⟨numbers⟩) := by
    unfold randomProgram
    rw [randomSymbols]
    show (Program.mk ([.loopOpen, .increment, .loopClose] ++
      ((randomSymbols 1).run (⟨4 :: numbers⟩ : Script)).1),
      ((randomSymbols 1).run (⟨4 :: numbers⟩ : Script)).2) = _
    rw [hlast]
    rfl
  have htwice (source : Script) : (randomPopulation 2 4).run source =
      ([((randomProgram 4).run source).1,
        ((randomProgram 4).run ((randomProgram 4).run source).2).1],
        ((randomProgram 4).run ((randomProgram 4).run source).2).2) := rfl
  unfold firstPopulation
  rw [h]
  show (randomPopulation 2 4).run _ = _
  rw [htwice, hprogram, hprogram]

end Engine

/-- The two programs have the same costs in every generation, so the settings and the examples are
all that this depends on. -/
theorem State.evaluate_split {s : State Script} (hconfig : s.engine.config = Engine.split.config)
    (hexamples : s.engine.examples = Engine.split.examples)
    (hpopulation : s.population = [.flagged, .flagged]) :
    s.evaluate .steady = ⟨[⟨.flagged, 99, 99⟩, ⟨.flagged, 99, 99⟩], 0, none,
      s.engine.stagnation.isStagnant⟩ := by
  -- What is measured is less than a millisecond, so that it does not matter whether it is charged.
  have hevaluation (generation : Nat) (stagnant : Bool) :
      evaluatePopulation .steady generation (Engine.split.config.cost.effective stagnant)
        Engine.split.examples [.flagged, .flagged] =
          ⟨[⟨.flagged, 99, 99⟩, ⟨.flagged, 99, 99⟩], 0, none, stagnant⟩ := by
    have hsteady : evaluatePopulation .steady generation = evaluatePopulation .steady 0 := rfl
    rw [hsteady]
    revert stagnant
    decide +kernel
  have hsorted : [⟨Program.flagged, 99, 99⟩, ⟨Program.flagged, 99, 99⟩].mergeSort
      (fun a b : ScoredProgram => a.cost ≤ b.cost) =
        [⟨Program.flagged, 99, 99⟩, ⟨Program.flagged, 99, 99⟩] :=
    List.mergeSort_of_pairwise (by decide)
  unfold evaluate Engine.costOptions
  rw [hpopulation, hconfig, hexamples, hevaluation]
  exact congrArg (Evaluation.mk · 0 none _) hsorted

/-- The first generation has no winner and no invalid program. -/
theorem Engine.evaluate_start_split : (State.start (.passive none) split).evaluate .steady =
    ⟨[⟨.flagged, 99, 99⟩, ⟨.flagged, 99, 99⟩], 0, none, false⟩ := by
  have hpopulation : (State.start (.passive none) split).population = [.flagged, .flagged] :=
    congrArg Prod.fst (firstPopulation_split rfl _)
  exact State.evaluate_split rfl rfl hpopulation

theorem Engine.reachedLimit?_split {e : Engine Script} (h : e.config = split.config) :
    e.reachedLimit? = none := by
  rw [reachedLimit?, h]
  rfl

/-- After the crossing, none of the programs can be scored; then the first two are drawn again. -/
theorem Engine.exists_states_split :
    ∃ s t, (State.start (.passive none) split).step .steady (.passive none) = .next s ∧
      (s.evaluate .steady).scored = [] ∧ s.step .steady (.passive none) = .next t ∧
        t.population = [.flagged, .flagged] := by
  have hfirst : split.firstPopulation.run split.source = ([.flagged, .flagged],
      ⟨[100, 0, 9007199254740991, 0, 1, 0, 6, 0, 0, 4, 6, 0, 0, 4]⟩) :=
    firstPopulation_split rfl _
  have hsource : (State.start (.passive none) split).engine.source =
      ⟨[100, 0, 9007199254740991, 0, 1, 0, 6, 0, 0, 4, 6, 0, 0, 4]⟩ :=
    congrArg Prod.snd hfirst
  have hnext : ∃ s, (State.start (.passive none) split).step .steady (.passive none) = .next s := by
    apply State.exists_next rfl rfl
    rw [evaluate_start_split]
  rcases hnext with ⟨s, hnext⟩
  -- The cut moves a `[` from one program to the other, which leaves a stray `]` in the one and an
  -- unclosed `[` in the other.
  have hdrawn : (s.population, s.engine.source) =
      ([⟨[.increment, .increment, .loopClose, .output]⟩,
        ⟨[.loopOpen, .loopOpen, .increment, .loopClose, .output]⟩],
          ⟨[6, 0, 0, 4, 6, 0, 0, 4]⟩) := by
    have hscored : ((State.start (.passive none) split).evaluate .steady).scored ≠ [] := by
      rw [evaluate_start_split]
      exact List.cons_ne_nil _ _
    rw [State.drawn_bred hnext hscored, evaluate_start_split, hsource, Prod.ext_iff]
    decide +kernel
  have hs : State.Reachable .steady (.passive none) split s := .next .start hnext
  rcases Prod.mk.inj hdrawn with ⟨hcrossed, hleft⟩
  have hscored : (s.evaluate .steady).scored = [] := by
    rw [State.scored_eq_nil_iff, hcrossed, hs.carried.1, hs.carried.2]
    decide
  have hwatched := Monitor.cancels_passive none
  have hagain : ∃ t, s.step .steady (.passive none) = .next t :=
    State.exists_next (State.cancelled_next hwatched hnext) (reachedLimit?_split hs.carried.1)
      (State.winner_eq_none_of_scored_eq_nil hscored)
  rcases hagain with ⟨t, hagain⟩
  refine ⟨s, t, hnext, hscored, hagain, ?_⟩
  have hanew := State.drawn_anew hagain hscored
  rw [hleft, firstPopulation_split hs.carried.1] at hanew
  exact congrArg Prod.fst hanew

/-- The third population of that search is drawn anew, and all of it is valid. -/
theorem fresh_populations_viable_split :
    Engine.split.config.validate = .ok () ∧
      Engine.split.config.cost.timeoutPolicy = .penalize ∧
      ∃ s t, State.Reachable .steady (.passive none) Engine.split s ∧
        (s.evaluate .steady).scored = [] ∧ 1 ≤ s.engine.generation ∧
        s.step .steady (.passive none) = .next t ∧ (t.evaluate .steady).invalid = 0 ∧
        ViableTrace t.snapshots := by
  have hvalid : Engine.split.config.validate = .ok () := by decide +kernel
  have hpolicy : Engine.split.config.cost.timeoutPolicy = .penalize := rfl
  rcases Engine.exists_states_split with ⟨s, t, hfirst, hscored, hnext, -⟩
  have hs : State.Reachable .steady (.passive none) Engine.split s := .next .start hfirst
  rcases fresh_populations_viable .steady (.passive none) Engine.split hvalid hpolicy with
    ⟨htrace, -, hviable⟩
  rcases hviable s hs hscored with ⟨hgeneration, hafter⟩
  exact ⟨hvalid, hpolicy, s, t, hs, hscored, hgeneration, hnext, (hafter t hnext).1,
    htrace t (.between (hs.next hnext))⟩

end TapeBreeder
