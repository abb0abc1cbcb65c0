import TapeBreeder.Proofs.Brackets.Unpaired
import TapeBreeder.Proofs.Breeding.Brackets
import TapeBreeder.Proofs.Random.Script

/-!
# What a mutation does to a program

Every edit works on a program that may have any brackets: it may write a loop between them, delete
a pair with all kinds of code between its ends, or delete a bracket that has no partner. None of
this takes the partner of another bracket away, whatever is drawn.

* `mutate_unpaired_le` — a mutation leaves no program empty and no more brackets of either kind
  without partner than there were.
-/

namespace TapeBreeder

variable {σ : Type} [RandomSource σ]

/-- Whatever is drawn, a mutation of any program, balanced or not, is not empty, and it has at most
as many `]`s without partner and at most as many `[`s without partner as the program. So what is
made of a balanced program is balanced, and what is made of one with a jump table has one too. -/
theorem mutate_unpaired_le (options : MutateOptions) (p : Program) :
    Surely (p.mutate options : StateM σ Program) fun q =>
      q.symbols ≠ [] ∧
      q.unpaired .loopClose ≤ p.unpaired .loopClose ∧
      q.unpaired .loopOpen ≤ p.unpaired .loopOpen ∧
      (p.isBalanced = true → q.isBalanced = true) ∧
      ((∃ table, JumpTable.build p.symbols = .ok table) →
        ∃ table, JumpTable.build q.symbols = .ok table) := by
  refine (surely_mutate options p).mono ?_
  rintro q ⟨hne, hcloses, hopens⟩
  refine ⟨hne, ?_, ?_, ?_, ?_⟩
  · rw [Program.unpaired_close, Program.unpaired_close]
    exact hcloses
  · rw [Program.unpaired_open, Program.unpaired_open]
    exact hopens
  · intro hbalanced
    -- Nothing is left over of a balanced program, so nothing is left over of its mutation.
    rw [Program.isBalanced_iff, balanced_iff_leftover_eq] at hbalanced ⊢
    rw [hbalanced] at hcloses hopens
    ext
    · exact Nat.le_zero.mp hcloses
    · exact Nat.le_zero.mp hopens
  · rw [← Program.isLoadable_iff_exists_build, ← Program.isLoadable_iff_exists_build,
      Program.isLoadable_iff_closes, Program.isLoadable_iff_closes]
    intro hloadable
    rw [hloadable] at hcloses
    exact Nat.le_zero.mp hcloses

/-- Where the first of two `[`s is deleted, the one that has no partner, the pair behind it is left;
and where the inner one of two pairs is deleted, both of its brackets go. -/
theorem mutate_unpaired_le_deletions :
    let options : MutateOptions := { inPlace := 0, addition := 0, deletion := 1, none := 0 }
    (((Program.parse "[[-]+").mutate options).run (⟨[0, 0]⟩ : Script)).1 = Program.parse "[-]+" ∧
      (Program.parse "[[-]+").unpaired .loopOpen = 1 ∧
      (Program.parse "[-]+").unpaired .loopOpen ≤ 1 ∧
      (∃ table, JumpTable.build (Program.parse "[-]+").symbols = .ok table) ∧
      (((Program.parse "[[-].]").mutate options).run (⟨[0, 1]⟩ : Script)).1 =
        Program.parse "[-.]" ∧
      (Program.parse "[-.]").isBalanced = true := by
  intro options
  have hsurplus : (((Program.parse "[[-]+").mutate options).run (⟨[0, 0]⟩ : Script)).1 =
      Program.parse "[-]+" := by decide
  have hinner : (((Program.parse "[[-].]").mutate options).run (⟨[0, 1]⟩ : Script)).1 =
      Program.parse "[-.]" := by decide
  have hcount : (Program.parse "[[-]+").unpaired .loopOpen = 1 := by decide
  have hsurplus_le := mutate_unpaired_le options (Program.parse "[[-]+") (⟨[0, 0]⟩ : Script)
  have hinner_le := mutate_unpaired_le options (Program.parse "[[-].]") (⟨[0, 1]⟩ : Script)
  rw [hsurplus] at hsurplus_le
  rw [hinner] at hinner_le
  rcases hsurplus_le with ⟨-, -, hopens, -, hbuild⟩
  rcases hinner_le with ⟨-, -, -, hbalanced, -⟩
  rw [hcount] at hopens
  exact ⟨hsurplus, hcount, hopens, hbuild ⟨_, rfl⟩, hinner, hbalanced (by decide)⟩

end TapeBreeder
