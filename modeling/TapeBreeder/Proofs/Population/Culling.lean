import Mathlib.Data.List.Sort
import TapeBreeder.Proofs.Population.Phases
import TapeBreeder.Proofs.Population.Ranking
import TapeBreeder.Proofs.Random.Script

/-!
# The cheapest programs survive

Many programs of a population cost the same. Which of them survive is said by their places: sorting
by costs keeps what costs the same in the order of the population, so the survivors are a beginning
of the programs ranked by cost and then by place.

* `pairwise_mergeSort_stable` — along a sorted row, what is tied stands in the order that it had.
* `Ranks` — the programs of a population with costs, by cost and place; `ranks_ranking` — sorting
  ranks them, and `map_snd_ranking` — it is the sorting of an evaluation.
* `selection_keeps_cheapest` — what is kept of a population, and what is bred from it.
-/

namespace TapeBreeder

/-! ## Stable sorting -/

/-- What holds of any two elements of a row in their order holds after sorting of those that are
tied. -/
theorem pairwise_mergeSort_stable {α : Type} {le : α → α → Bool}
    (htrans : ∀ a b c, le a b = true → le b c = true → le a c = true)
    (htotal : ∀ a b, (le a b || le b a) = true) {R : α → α → Prop} {row : List α}
    (h : row.Pairwise R) :
    (row.mergeSort le).Pairwise fun a b => le a b = true ∧ (le b a = true → R a b) := by
  -- Where the first element goes to is known of sorting; the rest is sorted around it.
  induction row with
  | nil =>
    rw [List.mergeSort_nil]
    exact .nil
  | cons a row ih =>
    rcases List.mergeSort_cons htrans htotal a row with ⟨xs, ys, hsort, hrest, hless⟩
    have hsorted := List.pairwise_mergeSort htrans htotal (a :: row)
    rw [List.pairwise_cons] at h
    have hpairs := ih h.2
    rw [hsort] at hsorted ⊢
    rw [hrest, List.pairwise_append] at hpairs
    rw [List.pairwise_append, List.pairwise_cons] at hsorted ⊢
    rcases hpairs with ⟨hxs, hys, hacross⟩
    refine ⟨hxs, ⟨?_, hys⟩, ?_⟩
    · -- What is sorted behind the first element stood behind it before.
      intro b hb
      have hmem : b ∈ row.mergeSort le := by
        rw [hrest]
        exact List.mem_append_right xs hb
      exact ⟨hsorted.2.1.1 b hb, fun _ => h.1 b (List.mem_mergeSort.mp hmem)⟩
    · intro b hb c hc
      rcases List.mem_cons.mp hc with rfl | hc
      · -- What is sorted before the first element is not tied with it.
        have hle := hsorted.2.2 b hb c List.mem_cons_self
        have hlt := hless b hb
        refine ⟨hle, ?_⟩
        intro hback
        rw [hback] at hlt
        cases hlt
      · exact hacross b hb c hc

/-! ## Ranks -/

/-- Whether one program with its place is ranked before another one: it costs less, or it costs the
same and stands at an earlier place. -/
def RankedBefore (a b : Nat × ScoredProgram) : Prop :=
  a.2.cost < b.2.cost ∨ (a.2.cost = b.2.cost ∧ a.1 < b.1)

instance : Std.Irrefl RankedBefore where
  irrefl a h := by
    rcases h with hlt | ⟨-, hlt⟩
    · exact Nat.lt_irrefl _ hlt
    · exact Nat.lt_irrefl _ hlt

theorem RankedBefore.cost_le {a b : Nat × ScoredProgram} (h : RankedBefore a b) :
    a.2.cost ≤ b.2.cost := by
  rcases h with hlt | ⟨heq, -⟩
  · exact Nat.le_of_lt hlt
  · rw [heq]
    exact Nat.le_refl _

theorem RankedBefore.place_lt {a b : Nat × ScoredProgram} (h : RankedBefore a b)
    (htied : a.2.cost = b.2.cost) : a.1 < b.1 := by
  rcases h with hlt | ⟨-, hlt⟩
  · rw [htied] at hlt
    exact absurd hlt (Nat.lt_irrefl _)
  · exact hlt

/-- Of two programs only one is ranked before the other. -/
theorem RankedBefore.asymm {a b : Nat × ScoredProgram} (h : RankedBefore a b) :
    ¬ RankedBefore b a := by
  intro hback
  have htied : a.2.cost = b.2.cost := Charge.ext (Nat.le_antisymm h.cost_le hback.cost_le)
  exact Nat.lt_asymm (h.place_lt htied) (hback.place_lt htied.symm)

instance : Std.Antisymm RankedBefore where
  antisymm _ _ h hback := absurd hback h.asymm

/-- Whether a row ranks all programs with costs among the results of scoring, each with its
place. -/
structure Ranks (results : List (Program × Cost × Cost)) (ranked : List (Nat × ScoredProgram)) :
    Prop where
  mem_iff : ∀ place s, (place, s) ∈ ranked ↔
    results[place]? = some (s.program, .valid s.baseCost, .valid s.cost)
  ordered : ranked.Pairwise RankedBefore

/-- There is one ranking. -/
theorem Ranks.unique {results : List (Program × Cost × Cost)}
    {ranked other : List (Nat × ScoredProgram)} (h : Ranks results ranked)
    (hother : Ranks results other) : other = ranked := by
  apply hother.ordered.eq_of_mem_iff h.ordered
  rintro ⟨place, s⟩
  rw [hother.mem_iff, h.mem_iff]

/-- The programs with costs, each with its place. -/
def placed (results : List (Program × Cost × Cost)) : List (Nat × ScoredProgram) :=
  results.zipIdx.filterMap fun result => (ScoredProgram.ofResult? result.1).map (result.2, ·)

/-- The programs with costs, sorted by these. -/
def ranking (results : List (Program × Cost × Cost)) : List (Nat × ScoredProgram) :=
  (placed results).mergeSort fun a b => a.2.cost ≤ b.2.cost

variable {results : List (Program × Cost × Cost)}

/-- A scored program is found with its place exactly where the results have it. -/
theorem mem_placed_iff {place : Nat} {s : ScoredProgram} :
    (place, s) ∈ placed results ↔
      results[place]? = some (s.program, .valid s.baseCost, .valid s.cost) := by
  unfold placed
  rw [List.mem_filterMap]
  constructor
  · rintro ⟨⟨result, index⟩, hresult, hplaced⟩
    rcases Option.map_eq_some_iff.mp hplaced with ⟨t, ht, hpair⟩
    obtain ⟨rfl, rfl⟩ := Prod.mk.inj hpair
    rw [List.mem_zipIdx_iff_getElem?] at hresult
    rw [hresult, ScoredProgram.ofResult?_eq_some_iff.mp ht]
  · intro hresult
    refine ⟨(_, place), List.mem_zipIdx_iff_getElem?.mpr hresult, ?_⟩
    rw [ScoredProgram.ofResult?_eq_some_iff.mpr rfl]
    rfl

/-- Before sorting, the programs stand in the order of their places. This is the order that a stable
sort keeps among ties. -/
theorem pairwise_placed (results : List (Program × Cost × Cost)) :
    (placed results).Pairwise fun a b => a.1 < b.1 := by
  have hplaces : results.zipIdx.Pairwise fun a b => a.2 < b.2 := by
    rw [← List.pairwise_map (f := Prod.snd), List.zipIdx_map_snd]
    exact List.pairwise_lt_range'
  unfold placed
  rw [List.pairwise_filterMap]
  refine hplaces.imp ?_
  intro a b hlt x hx y hy
  rcases Option.map_eq_some_iff.mp hx with ⟨_, -, rfl⟩
  rcases Option.map_eq_some_iff.mp hy with ⟨_, -, rfl⟩
  exact hlt

/-- Sorting by cost alone ranks by cost and then by place. -/
theorem ranks_ranking (results : List (Program × Cost × Cost)) :
    Ranks results (ranking results) where
  mem_iff place s := by
    unfold ranking
    rw [List.mem_mergeSort, mem_placed_iff]
  ordered := by
    have hstable := pairwise_mergeSort_stable
      (Charge.decide_le_trans fun a : Nat × ScoredProgram => a.2.cost)
      (Charge.decide_le_total fun a : Nat × ScoredProgram => a.2.cost) (pairwise_placed results)
    refine hstable.imp ?_
    rintro a b ⟨hle, htied⟩
    rw [decide_eq_true_eq] at hle htied
    -- Only a tie is decided by the places.
    rcases Nat.lt_or_eq_of_le hle with hlt | heq
    · exact .inl hlt
    · exact .inr ⟨Charge.ext heq, htied (Nat.le_of_eq heq.symm)⟩

theorem map_snd_placed (results : List (Program × Cost × Cost)) :
    (placed results).map (·.2) = results.filterMap ScoredProgram.ofResult? := by
  have hkept : ∀ result : (Program × Cost × Cost) × Nat,
      ((ScoredProgram.ofResult? result.1).map (result.2, ·)).map (·.2) =
        ScoredProgram.ofResult? result.1 := by
    intro result
    rw [Option.map_map]
    exact Option.map_id'
  -- The places are added, carried along and taken off again.
  calc (placed results).map (·.2)
      = results.zipIdx.filterMap (ScoredProgram.ofResult? ∘ Prod.fst) := by
        rw [placed, List.map_filterMap]
        exact List.filterMap_congr fun result _ => hkept result
    _ = (results.zipIdx.map Prod.fst).filterMap ScoredProgram.ofResult? :=
        List.filterMap_map.symm
    _ = results.filterMap ScoredProgram.ofResult? := by rw [List.zipIdx_map_fst]

/-- The sorted programs of an evaluation are those that are ranked. -/
theorem map_snd_ranking (timeCost : Bool) (results : List (Program × Cost × Cost)) :
    (ranking results).map (·.2) = (Evaluation.ofCosts timeCost results).sorted.scored := by
  have hsort : (ranking results).map (·.2) =
      ((placed results).map (·.2)).mergeSort fun a b => a.cost ≤ b.cost :=
    List.map_mergeSort fun _ _ _ _ => rfl
  rw [hsort, map_snd_placed, ← Evaluation.scored_ofCosts timeCost]
  rfl

/-! ## Survivors -/

theorem cull_eq_take (scored : List ScoredProgram) (ratio : Binary64) :
    cull scored ratio = (scored.take (cull scored ratio).length).map (·.program) := by
  rw [length_cull, ← List.take_eq_take_min]
  rfl

/-- The first of the scored programs survives first, and it is the best one. -/
theorem exists_cull_eq_cons {evaluation : Evaluation} (h : evaluation.scored ≠ [])
    (ratio : Binary64) : ∃ rest, cull evaluation.scored ratio = evaluation.best :: rest := by
  rcases List.exists_cons_of_ne_nil h with ⟨s, scored, hscored⟩
  have hkept : 1 ≤ keepCount evaluation.scored.length ratio := Nat.le_max_right _ 1
  obtain ⟨k, hk⟩ := Nat.exists_eq_add_of_le' hkept
  refine ⟨(scored.take k).map (·.program), ?_⟩
  rw [cull, hk, Evaluation.best, hscored]
  rfl

variable {σ : Type} [RandomSource σ]

/-- A population with a program that has a cost is evaluated, sorted and culled with any ratio. Its
programs with costs, each with its place in the population, are ranked by cost and then by place in
just one way, and the survivors are the first ones of this ranking: at least one of them, and at
most all. None that is lost costs less than a survivor, and where both cost the same, the survivor
stands at an earlier place. The first survivor is the best program, of which mutated copies fill the
places of invalid programs when the next generation is bred. -/
theorem selection_keeps_cheapest (clock : Clock) (generation : Nat) (options : CostOptions)
    (examples : List Example) (population : List Program) (evolve : EvolveOptions)
    (mutation : MutateOptions)
    (hvalid : ∃ p ∈ population, (p.baseCost clock options examples).cost ≠ .invalid) :
    let results := scoringResults clock generation options examples population
    let evaluation := (evaluatePopulation clock generation options examples population).sorted
    let survivors := cull evaluation.scored evolve.cullRatio
    (∃! ranked, Ranks results ranked) ∧
      (∀ ranked, Ranks results ranked →
        evaluation.scored = ranked.map (·.2) ∧
        survivors = (ranked.take survivors.length).map (·.2.program) ∧
        ∀ kept ∈ ranked.take survivors.length, ∀ lost ∈ ranked.drop survivors.length,
          kept.2.cost ≤ lost.2.cost ∧ (kept.2.cost = lost.2.cost → kept.1 < lost.1)) ∧
      1 ≤ survivors.length ∧ survivors.length ≤ evaluation.scored.length ∧
      ∃ best rest, survivors = best :: rest ∧
        (nextGeneration evolve mutation evaluation : StateM σ (List Program)) = (do
          let filled ← replaceInvalids mutation survivors best evaluation.invalid
          let mutants ← mutateAll mutation filled
          let children ← recombine filled mutants
          truncate children evolve.populationSize.toNat) := by
  intro results evaluation survivors
  have hranking : Ranks results (ranking results) := ranks_ranking results
  -- A program that is valid on its own has been scored.
  have hscored : evaluation.scored ≠ [] := by
    intro hnone
    rcases hvalid with ⟨p, hp, hcost⟩
    have hall := (sumsUp_evaluatePopulation clock options examples population
      generation).scored_eq_nil_iff.mp (Evaluation.scored_sorted_eq_nil_iff.mp hnone)
    exact hcost (hall p hp)
  have hlength : survivors.length = min _ evaluation.scored.length := length_cull _ _
  refine ⟨⟨_, hranking, fun _ => hranking.unique⟩, ?_, length_cull_pos hscored _, ?_, ?_⟩
  · intro ranked hranked
    obtain rfl := hranking.unique hranked
    have hsorted : evaluation.scored = (ranking results).map (·.2) :=
      (map_snd_ranking options.timeCost results).symm
    refine ⟨hsorted, ?_, ?_⟩
    · have htake : survivors = (evaluation.scored.take survivors.length).map (·.program) :=
        cull_eq_take _ _
      rw [hsorted, ← List.map_take, List.map_map] at htake
      exact htake
    · intro kept hkept lost hlost
      -- Where the ranking is cut, all that is kept stands before all that is lost.
      have hordered := hranking.ordered
      rw [← List.take_append_drop survivors.length (ranking results),
        List.pairwise_append] at hordered
      have hbefore := hordered.2.2 kept hkept lost hlost
      exact ⟨hbefore.cost_le, hbefore.place_lt⟩
  · rw [hlength]
    exact Nat.min_le_right _ _
  · rcases exists_cull_eq_cons hscored evolve.cullRatio with ⟨rest, hsurvivors⟩
    exact ⟨evaluation.best, rest, hsurvivors, rfl⟩

/-- Of three programs with equal costs the one at the earliest place survives, behind a cheaper one
that stands behind it in the population. -/
theorem selection_keeps_cheapest_ties :
    let population := ["+", "]", ",.", "-", "<"].map Program.parse
    let examples : List Example := [⟨"a", "b"⟩]
    let evolve : EvolveOptions := {}
    let results := scoringResults .steady 0 {} examples population
    let evaluation := (evaluatePopulation .steady 0 {} examples population).sorted
    let survivors := cull evaluation.scored evolve.cullRatio
    survivors = [",.", "+"].map Program.parse ∧ survivors.length ≤ evaluation.scored.length ∧
      ∃! ranked, Ranks results ranked := by
  intro population examples evolve results evaluation survivors
  have hselected := selection_keeps_cheapest (σ := Script) .steady 0 {} examples population evolve {}
    ⟨Program.parse ",.", by decide, by decide +kernel⟩
  have hscored : (evaluatePopulation .steady 0 {} examples population).scored =
      [⟨Program.parse "+", 256, 256⟩, ⟨Program.parse ",.", 2, 2⟩, ⟨Program.parse "-", 256, 256⟩,
        ⟨Program.parse "<", 256, 256⟩] := by
    decide +kernel
  have hsorted : evaluation.scored =
      [⟨Program.parse ",.", 2, 2⟩, ⟨Program.parse "+", 256, 256⟩, ⟨Program.parse "-", 256, 256⟩,
        ⟨Program.parse "<", 256, 256⟩] := by
    show List.mergeSort _ _ = _
    rw [hscored]
    have hcheap : (2 : Charge) ≤ 256 := by decide
    have hdear : ¬ (256 : Charge) ≤ 2 := by decide
    simp [List.mergeSort, hcheap, hdear]
  have hsurvivors : survivors = [",.", "+"].map Program.parse := by
    unfold survivors
    rw [hsorted]
    decide +kernel
  exact ⟨hsurvivors, hselected.2.2.2.1, hselected.1⟩

end TapeBreeder
