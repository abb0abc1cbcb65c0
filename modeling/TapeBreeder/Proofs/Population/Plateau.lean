import Mathlib.Data.List.Infix
import Mathlib.Order.Bounds.Basic
import TapeBreeder.Population.Stagnation

/-!
# Stagnation as a matter of history

Stagnation is told by a counter, the last cost and a flag, but all three can be read off the costs
that have been observed: what counts is how many of the last ones are one and the same.

* `IsPlateau` — the number of equal costs at the end, and what one more cost makes of it
  (`IsPlateau.concat`, `isPlateau_concat_of_ne`).
* `Stagnation.Recalls`, `Stagnation.Recalls.observe` — what is known after some costs, and that one
  more observation keeps this up.
* `Stagnation.run_mapM_note` — the answers to a row of observations.
* `stagnation_closed_form` — all of it, of every row of costs.
-/

namespace TapeBreeder

/-! ## Equal costs at the end -/

/-- Whether the last `n` of some costs are one and the same, and the last `n + 1` of them are
not. -/
def IsPlateau (costs : List Charge) (n : Nat) : Prop :=
  IsGreatest {k | ∃ best, List.replicate k best <:+ costs} n

/-- A row of equal costs at the end, if there are any, is of the last one. -/
theorem getLast?_of_replicate_suffix {costs : List Charge} {k : Nat} {best : Charge}
    (h : List.replicate (k + 1) best <:+ costs) : costs.getLast? = some best := by
  rw [← List.singleton_suffix_iff_getLast?_eq_some]
  rw [List.replicate_succ'] at h
  exact (List.suffix_append _ _).trans h

/-- Equal costs that end with a new cost are this cost and equal ones before it. The two lemmas on
plateaus below are read off from this. -/
theorem replicate_suffix_concat_iff {costs : List Charge} {k : Nat} {best cost : Charge} :
    List.replicate (k + 1) best <:+ costs ++ [cost] ↔
      best = cost ∧ List.replicate k best <:+ costs := by
  constructor
  · intro h
    have hlast := getLast?_of_replicate_suffix h
    rw [List.getLast?_concat] at hlast
    obtain rfl := Option.some.inj hlast
    rw [List.replicate_succ', List.suffix_append_self_iff] at h
    exact ⟨rfl, h⟩
  · rintro ⟨rfl, h⟩
    rwa [List.replicate_succ', List.suffix_append_self_iff]

theorem isPlateau_nil : IsPlateau [] 0 := by
  constructor
  · exact ⟨0, List.suffix_rfl⟩
  · rintro k ⟨best, hk⟩
    rw [List.suffix_nil, List.replicate_eq_nil_iff] at hk
    exact Nat.le_of_eq hk

/-- The last cost once more makes one more equal cost. -/
theorem IsPlateau.concat {costs : List Charge} {n : Nat} (h : IsPlateau costs n) {cost : Charge}
    (hlast : costs.getLast? = some cost) : IsPlateau (costs ++ [cost]) (n + 1) := by
  rcases h with ⟨⟨best, hbest⟩, hgreatest⟩
  constructor
  · -- A plateau of no costs is one of every cost; any other one is of the last cost.
    refine ⟨cost, replicate_suffix_concat_iff.mpr ⟨rfl, ?_⟩⟩
    cases n with
    | zero => exact List.nil_suffix
    | succ n =>
      have hsame := getLast?_of_replicate_suffix hbest
      rw [hlast] at hsame
      obtain rfl := Option.some.inj hsame
      exact hbest
  · rintro k ⟨best, hk⟩
    cases k with
    | zero => exact Nat.zero_le _
    | succ k => exact Nat.succ_le_succ (hgreatest ⟨best, (replicate_suffix_concat_iff.mp hk).2⟩)

/-- Any other cost stands alone. -/
theorem isPlateau_concat_of_ne {costs : List Charge} {cost : Charge}
    (hlast : costs.getLast? ≠ some cost) : IsPlateau (costs ++ [cost]) 1 := by
  constructor
  · exact ⟨cost, List.suffix_append costs [cost]⟩
  · rintro k ⟨best, hk⟩
    cases k with
    | zero => exact Nat.zero_le _
    | succ k =>
      rcases replicate_suffix_concat_iff.mp hk with ⟨rfl, hrest⟩
      cases k with
      | zero => exact Nat.le_refl _
      | succ k => exact absurd (getLast?_of_replicate_suffix hrest) hlast

/-- The last cost is a plateau by itself, so a plateau of nothing is one without costs. -/
theorem IsPlateau.pos {costs : List Charge} {n : Nat} (h : IsPlateau costs n) {cost : Charge}
    (hlast : costs.getLast? = some cost) : 0 < n :=
  h.2 ⟨cost, List.singleton_suffix_iff_getLast?_eq_some.mpr hlast⟩

/-! ## What is recalled -/

namespace Stagnation

/-- What is known after some best costs. -/
def after (threshold : Nat) (costs : List Charge) : Stagnation :=
  costs.foldl observe (start threshold)

theorem after_concat (threshold : Nat) (costs : List Charge) (cost : Charge) :
    after threshold (costs ++ [cost]) = (after threshold costs).observe cost := by
  rw [after, List.foldl_append]
  rfl

/-- What has to be known after some best costs: the last of them, how many before it were the same,
and whether these are as many as the threshold says, and at least one. -/
structure Recalls (limit : Nat) (costs : List Charge) (s : Stagnation) : Prop where
  threshold : s.threshold = limit
  lastBest : s.lastBest = costs.getLast?
  flatGenerations : ∃ n, IsPlateau costs n ∧ s.flatGenerations = n - 1
  isStagnant : s.isStagnant = true ↔ max limit 1 ≤ s.flatGenerations

/-- Before the first cost nothing is known and nothing is flat. A threshold of zero is not reached
either. -/
theorem recalls_start (threshold : Nat) : (start threshold).Recalls threshold [] where
  threshold := rfl
  lastBest := rfl
  flatGenerations := ⟨0, isPlateau_nil, rfl⟩
  isStagnant := by
    constructor
    · intro hstagnant
      cases hstagnant
    · intro hreached
      exact absurd (Nat.le_trans (Nat.le_max_right threshold 1) hreached) (Nat.lt_irrefl 0)

section

variable {threshold : Nat} {costs : List Charge} {s : Stagnation} {cost : Charge}

theorem observe_of_eq (h : s.lastBest = some cost) :
    s.observe cost =
      { s with
        flatGenerations := s.flatGenerations + 1
        isStagnant := s.isStagnant || s.threshold ≤ s.flatGenerations + 1 } :=
  if_pos h

/-- A cost other than the last one begins anew, with a counter of zero although it is a plateau of
one. -/
theorem observe_of_ne (h : s.lastBest ≠ some cost) :
    s.observe cost = { s with lastBest := some cost, flatGenerations := 0, isStagnant := false } :=
  if_neg h

/-- One observation keeps what is recalled up to date. -/
theorem Recalls.observe (h : s.Recalls threshold costs) (cost : Charge) :
    (s.observe cost).Recalls threshold (costs ++ [cost]) := by
  -- The new cost makes the plateau longer or starts one, just as it makes the counter go on or
  -- begin anew.
  by_cases hlast : s.lastBest = some cost
  · rcases h.flatGenerations with ⟨n, hplateau, hflat⟩
    have hcosts : costs.getLast? = some cost := h.lastBest.symm.trans hlast
    have hpos := hplateau.pos hcosts
    rw [observe_of_eq hlast]
    constructor
    · exact h.threshold
    · rw [List.getLast?_concat]
      exact hlast
    · refine ⟨n + 1, hplateau.concat hcosts, ?_⟩
      show s.flatGenerations + 1 = n
      omega
    · -- The flag stays, or is raised when the counter has come to the threshold.
      simp only [Bool.or_eq_true, decide_eq_true_eq, h.threshold, h.isStagnant]
      omega
  · have hcosts : costs.getLast? ≠ some cost := by
      rw [← h.lastBest]
      exact hlast
    rw [observe_of_ne hlast]
    constructor
    · exact h.threshold
    · rw [List.getLast?_concat]
    · exact ⟨1, isPlateau_concat_of_ne hcosts, rfl⟩
    · simp only [Bool.false_eq_true, false_iff]
      omega

end

/-- After any costs, what is recalled of them is right: the last one, the plateau at the end and
whether it is long enough. -/
theorem recalls_after (threshold : Nat) (costs : List Charge) :
    (after threshold costs).Recalls threshold costs := by
  -- The costs come one after the other, so the induction is on the last one.
  induction costs using List.reverseRecOn with
  | nil => exact recalls_start threshold
  | append_singleton costs cost ih =>
    rw [after_concat]
    exact ih.observe cost

/-! ## Answers -/

/-- To each of a row of observations it is answered whether the search is stagnant after it. -/
theorem run_mapM_note (costs : List Charge) (s : Stagnation) :
    (costs.mapM note).run s =
      (costs.inits.tail.map fun seen => (seen.foldl observe s).isStagnant,
        costs.foldl observe s) := by
  -- The answers come from the first one on, so here the induction is on the first cost.
  induction costs generalizing s with
  | nil => rfl
  | cons cost costs ih =>
    have hrow : ((cost :: costs).mapM note).run s =
        ((s.observe cost).isStagnant :: ((costs.mapM note).run (s.observe cost)).1,
          ((costs.mapM note).run (s.observe cost)).2) := by
      rw [List.mapM_cons]
      rfl
    have hinits : costs.inits = [] :: costs.inits.tail := by cases costs <;> rfl
    rw [hrow, ih, List.inits_cons, List.tail_cons, List.map_map, hinits]
    rfl

end Stagnation

/-- What is known after any row of best costs, with any threshold. The number of flat generations is
that of the equal costs at its end but one, and nothing without costs; the search is stagnant when
this number has come to the threshold, and to one at least. What each observation answers is whether
the search is stagnant after it. So once it is stagnant, one more cost leaves it so just if it is
the last one again; any other cost, lower or higher, ends this with that observation, and counting
begins anew. -/
theorem stagnation_closed_form (threshold : Nat) (costs : List Charge) :
    let s := Stagnation.after threshold costs
    (∃ n, IsPlateau costs n ∧ s.flatGenerations = n - 1) ∧
      (s.isStagnant = true ↔ max threshold 1 ≤ s.flatGenerations) ∧
      (costs.mapM Stagnation.note).run (.start threshold) =
        (costs.inits.tail.map fun seen => (Stagnation.after threshold seen).isStagnant, s) ∧
      (s.isStagnant = true → ∀ cost, (s.observe cost).isStagnant = true ↔
        costs.getLast? = some cost) ∧
      ∀ cost, costs.getLast? ≠ some cost →
        (s.observe cost).isStagnant = false ∧ (s.observe cost).flatGenerations = 0 := by
  intro s
  have hrecalls : s.Recalls threshold costs := Stagnation.recalls_after threshold costs
  -- A different cost ends stagnation whether or not the search was stagnant before.
  have hdropped : ∀ cost, costs.getLast? ≠ some cost →
      (s.observe cost).isStagnant = false ∧ (s.observe cost).flatGenerations = 0 := by
    intro cost hcost
    rw [← hrecalls.lastBest] at hcost
    rw [Stagnation.observe_of_ne hcost]
    exact ⟨rfl, rfl⟩
  refine ⟨hrecalls.flatGenerations, hrecalls.isStagnant, Stagnation.run_mapM_note costs _, ?_,
    hdropped⟩
  intro hstagnant cost
  by_cases hcost : costs.getLast? = some cost
  · rw [← hrecalls.lastBest] at hcost ⊢
    rw [Stagnation.observe_of_eq hcost, hstagnant, Bool.true_or]
    exact iff_of_true rfl hcost
  · rw [(hdropped cost hcost).1]
    exact iff_of_false Bool.false_ne_true hcost

/-- With a threshold of zero, a first cost does not make a search stagnant and its repetition does;
a lower cost ends this, and so does the first one when it comes back. -/
theorem stagnation_closed_form_return :
    let costs : List Charge := [7, 7, 5, 5, 5]
    let s := Stagnation.after 0 costs
    (costs.mapM Stagnation.note).run (.start 0) = ([false, true, false, true, true], s) ∧
      IsPlateau costs 3 ∧ s.flatGenerations = 3 - 1 ∧ s.isStagnant = true ∧
      (s.observe 5).isStagnant = true ∧ (s.observe 7).isStagnant = false := by
  intro costs s
  rcases stagnation_closed_form 0 costs with
    ⟨⟨n, hplateau, hflat⟩, hstagnant, hnotes, hstays, hdropped⟩
  have hcounted : s.flatGenerations = 2 := by decide
  have hraised : s.isStagnant = true := hstagnant.mpr (by rw [hcounted]; decide)
  have hthree : n = 3 := by
    have hcount : s.flatGenerations = n - 1 := hflat
    omega
  rw [hthree] at hplateau
  refine ⟨?_, hplateau, hcounted, hraised, (hstays hraised 5).mpr rfl,
    (hdropped 7 (by decide)).1⟩
  exact hnotes.trans rfl

end TapeBreeder
