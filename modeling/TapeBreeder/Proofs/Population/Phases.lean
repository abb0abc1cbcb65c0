import Mathlib.Data.List.Perm.Subperm
import TapeBreeder.Population.Selection
import TapeBreeder.Proofs.Random.Draws

/-!
# What the phases keep

The phases between two generations take programs over, mutate them, cross them and draw new ones.
They add up programs in known numbers, and a property that each operation keeps is one that holds of
whole populations.

* `length_cull`, `exists_mem_scored_of_mem_cull` — the best of the scored programs, at least one.
* `surely_refilled`, `surely_replaceInvalids`, `surely_mutateAll` — survivors, mutated copies and
  random programs.
* `surely_crossPairs`, `surely_recombine` — the children of as many pairs as there are survivors.
* `surely_truncate` — some of the children.
-/

namespace TapeBreeder

/-! ## Survivors -/

/-- As many survive as the ratio asks for, but no more than there are. -/
theorem length_cull (scored : List ScoredProgram) (ratio : Binary64) :
    (cull scored ratio).length = min (keepCount scored.length ratio) scored.length := by
  rw [cull, List.length_map, List.length_take]

/-- However few programs the ratio asks for, one of them is kept. -/
theorem length_cull_pos {scored : List ScoredProgram} (h : scored ≠ []) (ratio : Binary64) :
    0 < (cull scored ratio).length := by
  have hkept : 1 ≤ keepCount scored.length ratio := Nat.le_max_right _ 1
  have hscored : 0 < scored.length := List.length_pos_iff.mpr h
  rw [length_cull]
  omega

/-- A survivor has been scored, so what is known of scored programs is known of it. -/
theorem exists_mem_scored_of_mem_cull {scored : List ScoredProgram} {ratio : Binary64}
    {p : Program} (h : p ∈ cull scored ratio) : ∃ s ∈ scored, s.program = p := by
  rcases List.mem_map.mp h with ⟨s, hs, hprogram⟩
  exact ⟨s, List.mem_of_mem_take hs, hprogram⟩

variable {σ : Type} [RandomSource σ]

/-- Random programs are never empty, even where the program that lends its length is. -/
theorem surely_fillLength (survivors : List Program) (best : Program) :
    Surely (fillLength survivors best : StateM σ Nat) fun length => length ≠ 0 := by
  have hpos : ∀ p : Program, max p.length 1 ≠ 0 := by
    intro p
    omega
  unfold fillLength
  split
  · exact surely_pure (hpos best)
  · -- Any index will do: a length is at least one, whosever it is.
    refine (surely_any _).bind ?_
    intro index _
    exact surely_pure (hpos _)

/-- Behind the survivors come mutated copies of the best program, a quarter of what is missing, and
then random programs, all of one length. -/
theorem surely_refilled (options : MutateOptions) {L : Nat → Prop} {P : Program → Prop}
    {Q : Nat → Program → Prop} {survivors : List Program} {best : Program}
    (hfill : Surely (fillLength survivors best : StateM σ Nat) L)
    (hmutate : Surely (best.mutate options : StateM σ Program) P)
    (hfresh : ∀ length, L length → Surely (randomProgram length : StateM σ Program) (Q length))
    (quota : Nat) :
    Surely (replaceInvalids options survivors best quota : StateM σ (List Program)) fun filled =>
      ∃ length mutated fresh, L length ∧ filled = survivors ++ mutated ++ fresh ∧
        mutated.length = (quota + 3) / 4 ∧ fresh.length = quota - (quota + 3) / 4 ∧
        (∀ p ∈ mutated, P p) ∧ ∀ p ∈ fresh, Q length p := by
  unfold replaceInvalids
  split
  · next hquota =>
    intro source
    -- Nothing is missing, so nothing is drawn; a length exists all the same.
    refine ⟨_, [], [], hfill source, ?_, ?_, ?_, List.forall_mem_nil _, List.forall_mem_nil _⟩
    · rw [List.append_nil, List.append_nil]
      rfl
    · rw [hquota]
      rfl
    · rw [hquota]
      rfl
  · refine hfill.bind ?_
    intro length hlength
    refine (surely_repeatedly hmutate _).bind ?_
    rintro mutated ⟨hmutatedLength, hmutated⟩
    refine (surely_repeatedly (hfresh length hlength) _).bind ?_
    rintro fresh ⟨hfreshLength, hfresh⟩
    exact surely_pure ⟨length, mutated, fresh, hlength, rfl, hmutatedLength, hfreshLength, hmutated,
      hfresh⟩

/-- What holds of the survivors, of mutated copies of the best program and of random programs holds
of all of them once the places are filled. -/
theorem surely_replaceInvalids (options : MutateOptions) {P : Program → Prop}
    {survivors : List Program} {best : Program} (hsurvivors : ∀ p ∈ survivors, P p)
    (hmutate : Surely (best.mutate options : StateM σ Program) P)
    (hfresh : ∀ length, length ≠ 0 → Surely (randomProgram length : StateM σ Program) P)
    (quota : Nat) :
    Surely (replaceInvalids options survivors best quota : StateM σ (List Program)) fun filled =>
      filled.length = survivors.length + quota ∧ ∀ p ∈ filled, P p := by
  refine (surely_refilled options (surely_fillLength survivors best) hmutate hfresh quota).mono ?_
  rintro _ ⟨length, mutated, fresh, -, rfl, hmutatedLength, hfreshLength, hmutated, hfresh⟩
  constructor
  · rw [List.length_append, List.length_append, hmutatedLength, hfreshLength]
    omega
  · rw [List.forall_mem_append, List.forall_mem_append]
    exact ⟨⟨hsurvivors, hmutated⟩, hfresh⟩

/-! ## Mutants -/

/-- Each survivor has one mutant, with all that mutation makes sure of. -/
theorem surely_mutateAll (options : MutateOptions) {P : Program → Prop} {survivors : List Program}
    (h : ∀ p ∈ survivors, Surely (p.mutate options : StateM σ Program) P) :
    Surely (mutateAll options survivors : StateM σ (List Program)) fun mutants =>
      mutants.length = survivors.length ∧ ∀ p ∈ mutants, P p := by
  induction survivors with
  | nil => exact surely_pure ⟨rfl, List.forall_mem_nil P⟩
  | cons p rest ih =>
    rcases List.forall_mem_cons.mp h with ⟨hfirst, hrest⟩
    refine hfirst.bind ?_
    intro mutant hmutant
    refine (ih hrest).bind ?_
    rintro mutants ⟨hlength, hmutants⟩
    refine surely_pure ?_
    constructor
    · rw [List.length_cons, List.length_cons, hlength]
    · exact List.forall_mem_cons.mpr ⟨hmutant, hmutants⟩

/-! ## Children -/

/-- The children of pairs, two by two. -/
def childrenOf (pairs : List (Program × Program)) : List Program :=
  pairs.flatMap fun pair => [pair.1, pair.2]

theorem childrenOf_cons (pair : Program × Program) (pairs : List (Program × Program)) :
    childrenOf (pair :: pairs) = pair.1 :: pair.2 :: childrenOf pairs := by
  unfold childrenOf
  rw [List.flatMap_cons]
  rfl

theorem length_childrenOf (pairs : List (Program × Program)) :
    (childrenOf pairs).length = 2 * pairs.length := by
  induction pairs with
  | nil => rfl
  | cons pair pairs ih =>
    rw [childrenOf_cons, List.length_cons, List.length_cons, List.length_cons, ih]
    omega

theorem forall_mem_childrenOf {P : Program → Prop} {pairs : List (Program × Program)}
    (h : ∀ pair ∈ pairs, P pair.1 ∧ P pair.2) : ∀ p ∈ childrenOf pairs, P p := by
  induction pairs with
  | nil => exact List.forall_mem_nil P
  | cons pair pairs ih =>
    rcases List.forall_mem_cons.mp h with ⟨⟨hfirst, hsecond⟩, hrest⟩
    rw [childrenOf_cons, List.forall_mem_cons, List.forall_mem_cons]
    exact ⟨hfirst, hsecond, ih hrest⟩

/-- Crossing goes through both rows together. A property of pairs is kept as such, since it may tell
the two children apart. -/
theorem surely_crossPairs {Q : Program × Program → Prop} {as bs : List Program}
    (h : ∀ a ∈ as, ∀ b ∈ bs, Surely (a.crossover b : StateM σ (Program × Program)) Q)
    (hlength : bs.length = as.length) :
    Surely (crossPairs as bs : StateM σ (List Program)) fun children =>
      ∃ pairs, pairs.length = as.length ∧ (∀ pair ∈ pairs, Q pair) ∧
        children = childrenOf pairs := by
  induction as generalizing bs with
  | nil => exact surely_pure ⟨[], rfl, List.forall_mem_nil Q, rfl⟩
  | cons a as ih =>
    cases bs with
    | nil => cases hlength
    | cons b bs =>
      -- The first of each row are crossed, and then the rests, which are equally long.
      have hfirst := h a List.mem_cons_self b List.mem_cons_self
      have hrest : ∀ a ∈ as, ∀ b ∈ bs,
          Surely (a.crossover b : StateM σ (Program × Program)) Q := by
        intro a ha b hb
        exact h a (List.mem_cons_of_mem _ ha) b (List.mem_cons_of_mem _ hb)
      refine hfirst.bind ?_
      intro pair hpair
      refine (ih hrest (Nat.succ.inj hlength)).bind ?_
      rintro children ⟨pairs, hpairs, hall, hchildren⟩
      refine surely_pure ⟨pair :: pairs, ?_, ?_, ?_⟩
      · rw [List.length_cons, List.length_cons, hpairs]
      · exact List.forall_mem_cons.mpr ⟨hpair, hall⟩
      · rw [hchildren, childrenOf_cons]

/-- The orders that survivors and mutants are brought into do not matter. -/
theorem surely_recombine {Q : Program × Program → Prop} {survivors mutants : List Program}
    (h : ∀ a ∈ survivors, ∀ b ∈ mutants, Surely (a.crossover b : StateM σ (Program × Program)) Q)
    (hlength : mutants.length = survivors.length) :
    Surely (recombine survivors mutants : StateM σ (List Program)) fun children =>
      ∃ pairs, pairs.length = survivors.length ∧ (∀ pair ∈ pairs, Q pair) ∧
        children = childrenOf pairs := by
  refine (surely_shuffle survivors).bind ?_
  intro as has
  refine (surely_shuffle mutants).bind ?_
  intro bs hbs
  -- Shuffled rows have the same programs as before, and as many.
  rw [← has.length_eq]
  apply surely_crossPairs
  · intro a ha b hb
    exact h a (has.mem_iff.mp ha) b (hbs.mem_iff.mp hb)
  · rw [hbs.length_eq, has.length_eq, hlength]

/-- Which programs are kept is drawn, but none is kept more often than it was bred. -/
theorem surely_truncate (population : List Program) (size : Nat) :
    Surely (truncate population size : StateM σ (List Program)) fun kept =>
      kept.length = min size population.length ∧ kept.Subperm population := by
  refine (surely_shuffle population).bind ?_
  intro shuffled h
  -- Shuffling permutes, and what is taken from the front is part of it.
  refine surely_pure ?_
  constructor
  · rw [List.length_take, h.length_eq]
  · exact (List.take_sublist size shuffled).subperm.trans h.subperm

end TapeBreeder
