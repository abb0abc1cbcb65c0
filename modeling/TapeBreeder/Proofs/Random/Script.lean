import TapeBreeder.Breeding.Generation

/-!
# Scripted draws

A `Script` plays back a list of numbers, each brought into the range that is asked for, and zeros
after the last one. It is a lawful source, and what is drawn from it can be computed.

* `run_randomPopulation_one` — programs of one symbol are drawn by one number each, from a script or
  from any other source, as long as none of them is begun with a loop.
-/

namespace TapeBreeder

/-- The numbers that are still to be played back. -/
structure Script where
  numbers : List Nat
deriving DecidableEq, Repr

namespace Script

/-- The next number, brought below `n`. -/
def next (n : Nat) : StateM Script Nat
  | ⟨[]⟩ => (0, ⟨[]⟩)
  | ⟨x :: rest⟩ => (x % n, ⟨rest⟩)

instance : RandomSource Script where
  below := next
  place := next
  weight := next
  fraction := next fractionSize
  seed := do return UInt64.ofNat (← next UInt64.size)

/-- What is played back lies below the bound, as long as there is anything below it. -/
theorem next_lt {n : Nat} (h : 0 < n) (s : Script) : ((next n).run s).1 < n := by
  cases s with
  | mk numbers =>
    cases numbers with
    | nil => exact h
    | cons x rest => exact Nat.mod_lt x h

instance : LawfulSource Script where
  below_lt _ s h := next_lt h s
  place_lt _ s h := next_lt h s
  weight_lt _ s h _ := next_lt h s
  fraction_lt s := next_lt (by decide) s

end Script

/-! ## Programs of one symbol -/

section

variable {σ : Type} [RandomSource σ] {source : σ}

/-- The symbols that so many programs are begun with, if one symbol is drawn for each. -/
def firstSymbols (count : Nat) (source : σ) : List Symbol × σ :=
  (repeatedly (randomSymbol Symbol.starters) count).run source

/-- A first symbol that begins no loop is the whole of a program of one symbol. -/
theorem run_randomProgram_one {s : Symbol} {rest : σ}
    (hdraw : (randomSymbol Symbol.starters).run source = (s, rest)) (hs : s ≠ .loopOpen) :
    (randomProgram 1).run source = (⟨[s]⟩, rest) := by
  have hnone : (randomSymbols 0).run rest = ([], rest) := by
    rw [randomSymbols, if_pos rfl]
    rfl
  have hone : (randomSymbols 1).run source = ([s], rest) := by
    rw [randomSymbols, if_neg Nat.one_ne_zero, StateT.run_bind, hdraw]
    show StateT.run (if s ≠ .loopOpen then _ else _) rest = _
    rw [if_pos hs, StateT.run_bind, hnone]
    rfl
  rw [randomProgram, StateT.run_bind, hone]
  rfl

/-- Where no loop is begun, programs of one symbol are drawn like the symbols they consist of. -/
theorem run_randomPopulation_one {count : Nat}
    (h : ∀ s ∈ (firstSymbols count source).1, s ≠ .loopOpen) :
    (randomPopulation count 1).run source =
      ((firstSymbols count source).1.map fun s => ⟨[s]⟩, (firstSymbols count source).2) := by
  induction count generalizing source with
  | zero => rfl
  | succ count ih =>
    cases hdraw : (randomSymbol Symbol.starters).run source with
    | mk s rest =>
      have hsplit : firstSymbols (count + 1) source =
          (s :: (firstSymbols count rest).1, (firstSymbols count rest).2) := by
        rw [firstSymbols, repeatedly, StateT.run_bind, hdraw]
        rfl
      rw [hsplit] at h ⊢
      rcases List.forall_mem_cons.mp h with ⟨hs, hrest⟩
      -- The rest of the population is drawn from what the first program leaves of the source.
      have hothers := ih hrest
      rw [randomPopulation] at hothers ⊢
      rw [repeatedly, StateT.run_bind, run_randomProgram_one hdraw hs]
      show StateT.run (repeatedly (randomProgram 1) count >>= _) rest = _
      rw [StateT.run_bind, hothers]
      rfl

end

end TapeBreeder
