import TapeBreeder.Population.Evaluation
import TapeBreeder.Proofs.Brackets.Depth
import TapeBreeder.Proofs.Cost.Solved

/-!
# What an evaluation knows of its programs

Runtime is measured for every program, but an evaluation takes little notice of it: which programs
are scored, how many are invalid and which one is the winner is said by the costs without runtime.

* `Evaluation.SumsUp` — an evaluation of a population, told by the costs without runtime.
  `sumsUp_evaluatePopulation` is that of a population which has been scored.
* `mem_scored_evaluatePopulation` — a scored program is one of the population, with its costs.
* `winner_evaluatePopulation` — a winner is one of the population, and costs nothing even without
  runtime.
* `isLoadable_of_mem_scored` — scored programs can be loaded.
-/

namespace TapeBreeder

/-! ## Costs without runtime -/

/-- Runtime is added to what a valid program pays, unless that is nothing. -/
theorem Cost.exists_withRuntime_valid (options : CostOptions) (nanoseconds : Nat)
    (total : Charge) :
    ∃ charged, (valid total).withRuntime options nanoseconds = valid charged ∧
      (charged = 0 ↔ total = 0) := by
  by_cases hcharged : options.timeCost ∧ 0 < total
  · refine ⟨_, if_pos hcharged, ?_⟩
    rw [Charge.add_eq_zero_iff]
    have hne := Charge.pos_iff.mp hcharged.2
    constructor
    · intro h
      exact h.1
    · intro h
      exact absurd h hne
  · exact ⟨total, if_neg hcharged, Iff.rfl⟩

theorem Cost.total?_eq_some_iff {c : Cost} {total : Charge} :
    c.total? = some total ↔ c = valid total := by
  cases c with
  | valid amount => simp [total?]
  | invalid => simp [total?]

/-! ## Summing up -/

namespace Evaluation

variable {base : Program → Cost} {population rest : List Program} {e : Evaluation}

/-- Whether an evaluation says of a population what its costs without runtime say: it has scored the
programs with a cost, in population order, and counted the others, and the first program that costs
nothing is the winner. -/
structure SumsUp (base : Program → Cost) (population : List Program) (e : Evaluation) : Prop where
  scored : e.scored.map (fun s => (s.program, s.baseCost)) =
    population.filterMap fun p => (base p).total?.map (p, ·)
  invalid : e.invalid = population.countP fun p => (base p).isInvalid
  winner : e.winner = population.find? fun p => (base p).isPerfect

theorem sumsUp_empty (base : Program → Cost) (timeCost : Bool) :
    (empty timeCost).SumsUp base [] where
  scored := rfl
  invalid := rfl
  winner := rfl

/-- One more program is summed up, whatever runtime is measured for it. -/
theorem SumsUp.cons (h : e.SumsUp base rest) (p : Program) (options : CostOptions)
    (nanoseconds : Nat) :
    (e.cons p (base p) ((base p).withRuntime options nanoseconds)).SumsUp base (p :: rest) := by
  -- A program without a cost is counted, and any other is scored. Each case changes one of the
  -- three equations and keeps the others.
  cases hbase : base p with
  | invalid =>
    have hcons : e.cons p .invalid (Cost.invalid.withRuntime options nanoseconds) =
        { e with invalid := e.invalid + 1 } := rfl
    rw [hcons]
    constructor
    · rw [List.filterMap_cons_none (by rw [hbase]; rfl), ← h.scored]
    · rw [List.countP_cons_of_pos (by rw [hbase]; rfl), ← h.invalid]
    · rw [List.find?_cons_of_neg (by rw [hbase]; decide), ← h.winner]
  | valid total =>
    rcases Cost.exists_withRuntime_valid options nanoseconds total with ⟨charged, hcost, hzero⟩
    have hcons : e.cons p (.valid total) (.valid charged) =
        { e with
          scored := ⟨p, charged, total⟩ :: e.scored
          winner := if charged = 0 then some p else e.winner } := rfl
    rw [hcost, hcons]
    constructor
    · rw [List.filterMap_cons_some (by rw [hbase]; rfl), ← h.scored]
      rfl
    · rw [List.countP_cons_of_neg (by simp [hbase, Cost.isInvalid]), ← h.invalid]
    · show (if charged = 0 then some p else e.winner) = _
      -- Runtime does not decide who wins, as it is not added to a cost of zero.
      by_cases hfree : total = 0
      · rw [if_pos (hzero.mpr hfree), List.find?_cons_of_pos (by rw [hbase, hfree]; rfl)]
      · have hcharged : charged ≠ 0 := by
          intro h
          exact hfree (hzero.mp h)
        rw [if_neg hcharged, h.winner, List.find?_cons_of_neg]
        rw [hbase, Cost.isPerfect, beq_iff_eq, Cost.valid.injEq]
        exact hfree

/-- Evaluating a population sums it up, whatever runtime is measured for the program at each
place. -/
theorem sumsUp_ofCosts (base : Program → Cost) (options : CostOptions) (timeCost : Bool)
    (measured : Nat → Program → Nat) (population : List Program) :
    (ofCosts timeCost (population.mapIdx fun position p =>
      (p, base p, (base p).withRuntime options (measured position p)))).SumsUp base population := by
  -- The programs that come later stand one place further on.
  induction population generalizing measured with
  | nil => exact sumsUp_empty base timeCost
  | cons p rest ih =>
    rw [List.mapIdx_cons]
    exact (ih fun position => measured (position + 1)).cons p options (measured 0 p)

/-- Every program is scored or invalid, and none is both. -/
theorem SumsUp.length_add_invalid (h : e.SumsUp base population) :
    e.scored.length + e.invalid = population.length := by
  have hscored := congrArg List.length h.scored
  rw [List.length_map] at hscored
  rw [hscored, h.invalid]
  clear hscored h
  induction population with
  | nil => rfl
  | cons p rest ih =>
    cases hbase : base p with
    | invalid =>
      rw [List.filterMap_cons_none (by rw [hbase]; rfl),
        List.countP_cons_of_pos (by rw [hbase]; rfl), List.length_cons]
      omega
    | valid total =>
      rw [List.filterMap_cons_some (by rw [hbase]; rfl),
        List.countP_cons_of_neg (by simp [hbase, Cost.isInvalid]), List.length_cons,
        List.length_cons]
      omega

/-- Nothing is scored exactly where no program has a cost. -/
theorem SumsUp.scored_eq_nil_iff (h : e.SumsUp base population) :
    e.scored = [] ↔ ∀ p ∈ population, base p = .invalid := by
  have hlength := h.length_add_invalid
  have hall : e.scored = [] ↔ e.invalid = population.length := by
    rw [← List.length_eq_zero_iff]
    omega
  rw [hall, h.invalid, List.countP_eq_length]
  simp only [Cost.isInvalid, beq_iff_eq]

/-- A scored program comes from the population and carries its own base cost. -/
theorem SumsUp.mem_of_mem_scored (h : e.SumsUp base population) {s : ScoredProgram}
    (hs : s ∈ e.scored) : s.program ∈ population ∧ base s.program = .valid s.baseCost := by
  have hmem := List.mem_map_of_mem (f := fun s => (s.program, s.baseCost)) hs
  rw [h.scored, List.mem_filterMap] at hmem
  rcases hmem with ⟨p, hp, htotal⟩
  rcases Option.map_eq_some_iff.mp htotal with ⟨total, hvalid, hpair⟩
  rcases Prod.mk.inj hpair with ⟨rfl, rfl⟩
  exact ⟨hp, Cost.total?_eq_some_iff.mp hvalid⟩

theorem mem_scored_sorted {e : Evaluation} {s : ScoredProgram} :
    s ∈ e.sorted.scored ↔ s ∈ e.scored :=
  List.mem_mergeSort

theorem scored_sorted_eq_nil_iff {e : Evaluation} : e.sorted.scored = [] ↔ e.scored = [] := by
  rw [← List.length_eq_zero_iff, ← List.length_eq_zero_iff, sorted, List.length_mergeSort]

theorem bestBaseCost?_eq_none_iff {e : Evaluation} : e.bestBaseCost? = none ↔ e.scored = [] := by
  unfold bestBaseCost?
  rw [List.min?_eq_none_iff, List.map_eq_nil_iff]

theorem scored_ne_nil_of_bestBaseCost? {e : Evaluation} {best : Charge}
    (h : e.bestBaseCost? = some best) : e.scored ≠ [] := by
  intro hnil
  rw [bestBaseCost?_eq_none_iff.mpr hnil] at h
  cases h

end Evaluation

/-! ## Scoring -/

variable {clock : Clock} {generation : Nat} {options : CostOptions} {examples : List Example}
  {population : List Program}

/-- The spec of scoring a population. It says nothing about runtime, and everything below follows
from it. -/
theorem sumsUp_evaluatePopulation (clock : Clock) (options : CostOptions)
    (examples : List Example) (population : List Program) (generation : Nat) :
    (evaluatePopulation clock generation options examples population).SumsUp
      (fun p => (p.baseCost clock options examples).cost) population :=
  Evaluation.sumsUp_ofCosts _ options options.timeCost _ population

/-- A scored program is one of the population, with the cost that it has without runtime. -/
theorem mem_scored_evaluatePopulation {s : ScoredProgram}
    (h : s ∈ (evaluatePopulation clock generation options examples population).scored) :
    s.program ∈ population ∧
      (s.program.baseCost clock options examples).cost = .valid s.baseCost :=
  (sumsUp_evaluatePopulation clock options examples population generation).mem_of_mem_scored h

/-- A winner costs nothing, although the costs that it has been chosen by contain runtime. -/
theorem winner_evaluatePopulation {p : Program}
    (h : (evaluatePopulation clock generation options examples population).winner = some p) :
    p ∈ population ∧ (p.baseCost clock options examples).cost = .valid 0 := by
  rw [(sumsUp_evaluatePopulation clock options examples population generation).winner] at h
  have hperfect := List.find?_some h
  rw [Cost.isPerfect, beq_iff_eq] at hperfect
  exact ⟨List.mem_of_find?_eq_some h, hperfect⟩

/-- A first program that costs nothing is the winner. -/
theorem winner_evaluatePopulation_cons {p : Program} {rest : List Program}
    (h : (p.baseCost clock options examples).cost = .valid 0) :
    (evaluatePopulation clock generation options examples (p :: rest)).winner = some p := by
  rw [(sumsUp_evaluatePopulation clock options examples (p :: rest) generation).winner]
  apply List.find?_cons_of_pos
  rw [h]
  rfl

/-! ## Loadable programs -/

theorem Program.isLoadable_of_baseCost {p : Program} {total : Charge}
    (h : (p.baseCost clock options examples).cost = .valid total) : p.isLoadable := by
  apply isLoadable_of_baseCost_ne
  rw [h]
  exact nofun

/-- All that breeding starts from can be loaded, since it has been scored. -/
theorem isLoadable_of_mem_scored {s : ScoredProgram}
    (h : s ∈ (evaluatePopulation clock generation options examples population).sorted.scored) :
    s.program.isLoadable :=
  Program.isLoadable_of_baseCost (mem_scored_evaluatePopulation
    (Evaluation.mem_scored_sorted.mp h)).2

end TapeBreeder
