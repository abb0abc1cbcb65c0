import Mathlib.Algebra.Order.Floor.Div
import Mathlib.GroupTheory.GroupAction.Ring
import TapeBreeder.Proofs.Breeding.Brackets
import TapeBreeder.Proofs.Population.Phases
import TapeBreeder.Proofs.Random.Script

/-!
# Filling places

The places of invalid programs are filled behind the survivors, which stay as they are: a quarter of
them with mutated copies of the best program, the others with random programs that are as long as
one of the survivors.

* `Possible` — what may come of draws.
* `surely_fillLength_survivor` — from a lawful source, the length is that of a survivor.
* `surely_randomProgram_length` — and a random program has the length that is asked for.
* `refill_keeps_survivors` — all of it, for every number of places.
-/

namespace TapeBreeder

variable {σ α : Type}

/-- Whether something may come of some draws. -/
def Possible (draws : StateM σ α) (a : α) : Prop :=
  ∃ source, (draws.run source).1 = a

theorem surely_possible (draws : StateM σ α) : Surely draws (Possible draws) := by
  intro source
  exact ⟨source, rfl⟩

/-- What surely holds, holds of all that may be drawn. So the possible outcomes can be collected
first, and their properties later. -/
theorem Surely.of_possible {P : α → Prop} {draws : StateM σ α} {a : α} (h : Surely draws P)
    (ha : Possible draws a) : P a := by
  rcases ha with ⟨source, rfl⟩
  exact h source

variable [RandomSource σ]

/-- The length of random programs is that of a survivor, if there is one. -/
theorem surely_fillLength_survivor [LawfulSource σ] (survivors : List Program) (best : Program) :
    Surely (fillLength survivors best : StateM σ Nat) fun length =>
      (survivors = [] ∧ length = max 1 best.length) ∨ ∃ p ∈ survivors, length = max 1 p.length := by
  unfold fillLength
  split
  · next hempty =>
    exact surely_pure (.inl ⟨List.isEmpty_iff.mp hempty, Nat.max_comm _ _⟩)
  · next hsome =>
    -- A lawful source draws below the number of survivors, so the default length is not taken.
    rw [List.isEmpty_iff] at hsome
    refine (surely_below (List.length_pos_iff.mpr hsome)).bind ?_
    intro index hindex
    have hsurvivor : survivors.getD index best = survivors[index] := by
      rw [List.getD_eq_getElem?_getD, List.getElem?_eq_getElem hindex, Option.getD_some]
    rw [hsurvivor]
    exact surely_pure (.inr ⟨_, List.getElem_mem hindex, Nat.max_comm _ _⟩)

/-- A random program has the length that was asked for, and all its loops are closed. -/
theorem surely_randomProgram_length [LawfulSource σ] (length : Nat) :
    Surely (randomProgram length : StateM σ Program) fun p =>
      p.length = length ∧ Balanced p.symbols := by
  have hsymbols : Surely (randomSymbols length : StateM σ (List Symbol)) fun symbols =>
      symbols.length = length ∧ Balanced symbols := by
    refine (surely_drawn (fun _ => surely_below) length).mono ?_
    intro symbols hdrawn
    exact ⟨hdrawn.length_eq, hdrawn.flat.balanced⟩
  exact surely_randomProgram_of hsymbols

/-- The places of any number of invalid programs are filled, whatever is drawn. The survivors come
first, unchanged and in order; then, for a quarter of the places, rounded up, programs that mutating
the best one may lead to; then random programs for the other places, so that there is one program
for each survivor and for each place. The random programs are balanced and all of one length, that
of a survivor or, if there is none, of the best program, but at least one. If the best program has a
jump table, then so have all programs that have been added. Without places to fill, nothing changes
and nothing is drawn. -/
theorem refill_keeps_survivors [LawfulSource σ] (options : MutateOptions)
    (survivors : List Program) (best : Program) (quota : Nat) (source : σ) :
    let filled := (replaceInvalids options survivors best quota).run source
    (∃ length mutated fresh, filled.1 = survivors ++ mutated ++ fresh ∧
      mutated.length = quota ⌈/⌉ 4 ∧ fresh.length = quota - quota ⌈/⌉ 4 ∧
      ((survivors = [] ∧ length = max 1 best.length) ∨
        ∃ p ∈ survivors, length = max 1 p.length) ∧
      (∀ p ∈ mutated, Possible (best.mutate options : StateM σ Program) p) ∧
      (∀ p ∈ fresh, Possible (randomProgram length : StateM σ Program) p ∧
        p.length = length ∧ p.symbols ≠ [] ∧ p.isBalanced = true) ∧
      ((∃ table, JumpTable.build best.symbols = .ok table) →
        ∀ p ∈ mutated ++ fresh, ∃ table, JumpTable.build p.symbols = .ok table)) ∧
    filled.1.length = survivors.length + quota ∧
    (quota = 0 → filled = (survivors, source)) := by
  intro filled
  have hquarter : quota ⌈/⌉ 4 = (quota + 3) / 4 := Nat.ceilDiv_eq_add_pred_div quota 4
  rcases surely_refilled options (surely_fillLength_survivor survivors best)
    (surely_possible (best.mutate options)) (fun length _ => surely_possible (randomProgram length))
    quota source with
    ⟨length, mutated, fresh, hlength, hfilled, hmutatedLength, hfreshLength, hmutated, hfresh⟩
  have hpos : 0 < length := by
    -- Either kind of length is at least one.
    rcases hlength with ⟨-, rfl⟩ | ⟨p, -, rfl⟩ <;> omega
  -- What may come of the draws is all that is known of the programs; what they surely are follows.
  have hrandom : ∀ p ∈ fresh, p.length = length ∧ Balanced p.symbols := by
    intro p hp
    exact (surely_randomProgram_length length).of_possible (hfresh p hp)
  refine ⟨⟨length, mutated, fresh, hfilled, ?_, ?_, hlength, hmutated, ?_, ?_⟩, ?_, ?_⟩
  · rw [hmutatedLength, hquarter]
  · rw [hfreshLength, hquarter]
  · intro p hp
    rcases hrandom p hp with ⟨hp', hbalanced⟩
    refine ⟨hfresh p hp, hp', ?_, Program.isBalanced_iff.mpr hbalanced⟩
    rw [← List.length_pos_iff]
    exact Nat.lt_of_lt_of_eq hpos hp'.symm
  · intro hbest p hp
    rw [← Program.isLoadable_iff_exists_build] at hbest ⊢
    rcases List.mem_append.mp hp with hp | hp
    · exact (surely_isLoadable_mutate options hbest).of_possible (hmutated p hp)
    · exact Program.isLoadable_of_balanced (hrandom p hp).2
  · show filled.1.length = _
    rw [hfilled, List.length_append, List.length_append, hmutatedLength, hfreshLength]
    omega
  · -- No draw is made at all, so this holds of the source, too.
    intro hquota
    show (replaceInvalids options survivors best quota).run source = _
    rw [replaceInvalids, if_pos hquota]
    rfl

/-- Of five places two are filled with mutations of the best program, which loses a pair of brackets
in the one and nothing in the other; the second survivor has three symbols, and so have the three
random programs. Without places to fill, the draws are still there. -/
theorem refill_keeps_survivors_shares :
    let survivors := ["+-", "[.]", ""].map Program.parse
    let best := Program.parse ",[.,]"
    let draws : Script := ⟨[1, 130, 1, 170, 6, 0, 1, 4]⟩
    let filled := (replaceInvalids {} survivors best 5).run draws
    filled.1 = survivors ++ [",.,", ",[.,]"].map Program.parse ++
        ["+-.", "+++", "+++"].map Program.parse ∧
      (∃ length mutated fresh, filled.1 = survivors ++ mutated ++ fresh ∧ mutated.length = 2 ∧
        fresh.length = 3 ∧ (∀ p ∈ fresh, p.length = length ∧ p.isBalanced = true) ∧
        ∀ p ∈ mutated ++ fresh, ∃ table, JumpTable.build p.symbols = .ok table) ∧
      filled.1.length = 3 + 5 ∧
      (replaceInvalids {} survivors best 0).run draws = (survivors, draws) := by
  intro survivors best draws filled
  rcases refill_keeps_survivors {} survivors best 5 draws with
    ⟨⟨length, mutated, fresh, hfilled, hmutated, hfresh, -, -, hrandom, hbuild⟩, hlength, -⟩
  have hnone := (refill_keeps_survivors {} survivors best 0 draws).2.2 rfl
  have hbest : ∃ table, JumpTable.build best.symbols = .ok table := ⟨_, rfl⟩
  refine ⟨by decide +kernel, ⟨length, mutated, fresh, hfilled, hmutated, hfresh, ?_, hbuild hbest⟩,
    hlength, hnone⟩
  intro p hp
  exact ⟨(hrandom p hp).2.1, (hrandom p hp).2.2.2⟩

end TapeBreeder
