import TapeBreeder.Proofs.Brackets.Flat
import TapeBreeder.Proofs.Random.Draws
import TapeBreeder.Proofs.Random.Script
import TapeBreeder.Proofs.Safety.Breeding

/-!
# What random programs look like

A random program grows by a symbol or by a whole loop until no symbols are missing. `Drawn` builds
rows of symbols in the same way, and what is known of them is proved along it.

* `Drawn`, `surely_drawn` — rows of symbols by how many were missing, and that the symbols of a
  random program are such a row.
* `Drawn.flat` — loops do not nest and are not empty, whatever the source.
* `Drawn.length_eq`, `Drawn.exists_room` — from a lawful source, a loop never runs over the end, and
  at least four symbols are missing where one begins.
* `randomProgram_follows_grammar` — all of it, of random programs of every length.
-/

namespace TapeBreeder

variable {σ : Type} [RandomSource σ]

/-! ## Symbols and loops -/

theorem getD_mem {xs : List Symbol} {s : Symbol} (hs : s ∈ xs) (i : Nat) : xs.getD i s ∈ xs := by
  rw [List.getD_eq_getElem?_getD]
  cases h : xs[i]? with
  | none => exact hs
  | some t => exact List.mem_of_getElem? h

/-- From a set with `increment`, the symbol that is fallen back on, only its members are drawn,
whatever number is drawn for the place. -/
theorem surely_randomSymbol {symbols : List Symbol} (h : Symbol.increment ∈ symbols) :
    Surely (randomSymbol symbols : StateM σ Symbol) fun s => s ∈ symbols := by
  refine (surely_any _).bind ?_
  intro i _
  exact surely_pure (getD_mem h i)

theorem surely_randomSymbol_plain :
    Surely (randomSymbol Symbol.plain : StateM σ Symbol) fun s => s.isBracket = false := by
  refine (surely_randomSymbol (by decide)).mono ?_
  intro s hs
  exact Symbol.mem_plain_iff.mp hs

theorem surely_randomSymbol_starters :
    Surely (randomSymbol Symbol.starters : StateM σ Symbol) fun s => s ≠ .loopClose := by
  refine (surely_randomSymbol (by decide)).mono ?_
  intro s hs
  exact Symbol.mem_starters_iff.mp hs

/-- A loop has a body of the size that is asked for, without brackets. -/
theorem surely_randomLoop (size : Nat) :
    Surely (randomLoop size : StateM σ (List Symbol)) fun loop =>
      ∃ body, loop = .loopOpen :: body ++ [.loopClose] ∧ body.length = size ∧
        ∀ s ∈ body, s.isBracket = false := by
  refine (surely_repeatedly surely_randomSymbol_plain size).bind ?_
  rintro body ⟨hlength, hplain⟩
  exact surely_pure ⟨body, rfl, hlength, hplain⟩

/-! ## Rows that grow from their front -/

/-- The rows that may be drawn where so many symbols are missing. All that is known of a number that
is drawn below `n` is that `Range n` holds of it. -/
inductive Drawn (Range : Nat → Nat → Prop) : Nat → List Symbol → Prop where
  /-- No symbols are missing. -/
  | nil : Drawn Range 0 []
  /-- A symbol that is no bracket. -/
  | plain {missing : Nat} {s : Symbol} {rest : List Symbol} (hs : s.isBracket = false)
    (hrest : Drawn Range missing rest) : Drawn Range (missing + 1) (s :: rest)
  /-- A loop, where there is room for one. -/
  | loop {missing size : Nat} {body rest : List Symbol} (hroom : 4 ≤ missing)
    (hsize : Range (missing - 2) size) (hlength : body.length = size + 1)
    (hbody : ∀ s ∈ body, s.isBracket = false) (hrest : Drawn Range (missing - (size + 3)) rest) :
    Drawn Range missing (.loopOpen :: (body ++ .loopClose :: rest))

/-- Random symbols grow from their front by symbols and loops, with numbers from the ranges that the
source keeps. -/
theorem surely_drawn {Range : Nat → Nat → Prop}
    (h : ∀ n, 0 < n → Surely (RandomSource.below n : StateM σ Nat) (Range n)) (missing : Nat) :
    Surely (randomSymbols missing : StateM σ (List Symbol)) (Drawn Range missing) := by
  -- By induction on the symbols that are missing: a loop adds several of them at once.
  induction missing using Nat.strongRecOn with
  | ind missing ih =>
    rw [randomSymbols]
    split
    · next hnone =>
      rw [hnone]
      exact surely_pure .nil
    · next hsome =>
      have hpred : missing - 1 + 1 = missing := by omega
      refine surely_randomSymbol_starters.bind ?_
      intro next hnext
      split
      · -- No `[` has been drawn, and a `]` is not among the starters.
        next hopen =>
        have hplain : next.isBracket = false := by
          rcases Program.symbol_cases next with rfl | rfl | h
          · exact absurd rfl hopen
          · exact absurd rfl hnext
          · exact h
        refine (ih (missing - 1) (by omega)).bind ?_
        intro rest hrest
        rw [← hpred]
        exact surely_pure (.plain hplain hrest)
      · split
        · -- There is no room for a loop, so another symbol takes the place of the `[`.
          refine surely_randomSymbol_plain.bind ?_
          intro next hplain
          refine (ih (missing - 1) (by omega)).bind ?_
          intro rest hrest
          rw [← hpred]
          exact surely_pure (.plain hplain hrest)
        · -- The `[` becomes a whole loop.
          next hroom =>
          refine (h (missing - 2) (by omega)).bind ?_
          intro size hsize
          refine (surely_randomLoop (size + 1)).bind ?_
          rintro _ ⟨body, rfl, hlength, hbody⟩
          refine (ih (missing - (size + 3)) (by omega)).bind ?_
          intro rest hrest
          rw [List.append_assoc]
          exact surely_pure (.loop (Nat.le_of_not_lt hroom) hsize hlength hbody hrest)

namespace Drawn

variable {Range : Nat → Nat → Prop} {missing : Nat} {w : List Symbol}

/-- Rows that are drawn are flat: bodies have at least one symbol and no brackets. -/
theorem flat (h : Drawn Range missing w) : Flat w := by
  induction h with
  | nil => exact .nil
  | plain hs _ ih => exact .plain hs ih
  | loop _ _ hlength hbody _ ih =>
    exact .loop (List.ne_nil_of_length_eq_add_one hlength) hbody ih

theorem ne_nil (h : Drawn Range missing w) (hmissing : missing ≠ 0) : w ≠ [] := by
  cases h with
  | nil => exact absurd rfl hmissing
  | plain => exact List.cons_ne_nil _ _
  | loop => exact List.cons_ne_nil _ _

/-- If draws lie in the requested ranges, a body leaves room for the `]`. -/
theorem length_eq (h : Drawn (fun n k => k < n) missing w) : w.length = missing := by
  induction h with
  | nil => rfl
  | plain _ _ ih => rw [List.length_cons, ih]
  | loop _ hsize hlength _ _ ih =>
    rw [List.length_cons, List.length_append, List.length_cons, hlength, ih]
    omega

/-- If draws lie in the requested ranges, none of the last three symbols is a `[`. -/
theorem exists_room (h : Drawn (fun n k => k < n) missing w) {i : Nat}
    (hopen : w[i]? = some .loopOpen) : i + 4 ≤ missing := by
  induction h generalizing i with
  | nil => cases hopen
  | @plain missing s rest hs _ ih =>
    cases i with
    | zero =>
      obtain rfl := Option.some.inj hopen
      cases hs
    | succ i =>
      have hi := ih hopen
      omega
  | @loop missing size body rest hroom hsize hlength hbody _ ih =>
    cases i with
    | zero => omega
    | succ i =>
      rw [List.getElem?_cons_succ, List.getElem?_append] at hopen
      split at hopen
      · -- The body has no brackets.
        cases hbody _ (List.mem_of_getElem? hopen)
      · next hi =>
        cases hj : i - body.length with
        | zero =>
          rw [hj] at hopen
          cases hopen
        | succ j =>
          rw [hj, List.getElem?_cons_succ] at hopen
          have hrest := ih hopen
          omega

end Drawn

/-! ## Random programs -/

theorem surely_randomProgram_of {P : List Symbol → Prop} {length : Nat}
    (h : Surely (randomSymbols length : StateM σ (List Symbol)) P) :
    Surely (randomProgram length : StateM σ Program) fun p => P p.symbols := by
  refine h.bind ?_
  intro symbols hsymbols
  exact surely_pure hsymbols

/-- A random program is made without a draw from an empty range. It has the length that is asked
for, and is a word of the grammar: it is balanced, and each of its loops has a body, which has no
loops. A loop begins only where at least four symbols are missing, and so never in a program of
less than four symbols. -/
theorem randomProgram_follows_grammar [LawfulSource σ] (n : Nat) (source : σ) :
    ∃ p rest, (Guarded.randomProgram n : Guarded σ Program).run source = .ok (p, rest) ∧
      (randomProgram n : StateM σ Program).run source = (p, rest) ∧
      p.length = n ∧ p.symbols ∈ flatCode.matches' ∧ p.isBalanced = true ∧
      (∀ first second, IsPair p.symbols first second → first + 1 < second ∧
        ∀ i s, first < i → i < second → p.symbols[i]? = some s → s.isBracket = false) ∧
      (∀ i, p.symbols[i]? = some .loopOpen → i + 4 ≤ n) ∧
      (n < 4 → ∀ s ∈ p.symbols, s.isBracket = false) := by
  have hdrawn : Drawn (fun n k => k < n) n
      ((randomProgram n : StateM σ Program).run source).1.symbols :=
    surely_randomProgram_of (surely_drawn (fun _ => surely_below) n) source
  have hflat := hdrawn.flat
  refine ⟨_, _, Guarded.passes_randomProgram n source, rfl, hdrawn.length_eq,
    flat_iff_mem_matches'.mp hflat, Program.isBalanced_iff.mpr hflat.balanced, ?_, ?_, ?_⟩
  · intro first second hpair
    exact hflat.of_isPair hpair
  · intro i hopen
    exact hdrawn.exists_room hopen
  · intro hshort
    apply hflat.isBracket_eq_false
    intro hmem
    rcases List.getElem?_of_mem hmem with ⟨i, hi⟩
    have hroom := hdrawn.exists_room hi
    omega

/-- Where six symbols are missing, a loop with a body of two is drawn, and then two more symbols:
the second `[` is drawn for the last place, so that another symbol is drawn instead. Where three are
missing, all three `[`s that are drawn give way to other symbols. -/
theorem randomProgram_follows_grammar_rooms :
    ∃ rest last, (Guarded.randomProgram 6).run (⟨[6, 1, 0, 2, 4, 6, 5]⟩ : Script) =
        .ok (Program.parse "[+<].,", rest) ∧
      (Program.parse "[+<].,").symbols ∈ flatCode.matches' ∧
      (Program.parse "[+<].,").isBalanced = true ∧
      IsPair (Program.parse "[+<].,").symbols 0 3 ∧ 0 + 1 < 3 ∧ 0 + 4 ≤ 6 ∧
      (Guarded.randomProgram 3).run (⟨[6, 5, 6, 4, 6, 1]⟩ : Script) =
        .ok (Program.parse ",.-", last) ∧
      ∀ s ∈ (Program.parse ",.-").symbols, s.isBracket = false := by
  have hlong : ((randomProgram 6).run (⟨[6, 1, 0, 2, 4, 6, 5]⟩ : Script)).1 =
      Program.parse "[+<].," := by
    decide +kernel
  have hshort : ((randomProgram 3).run (⟨[6, 5, 6, 4, 6, 1]⟩ : Script)).1 =
      Program.parse ",.-" := by
    decide +kernel
  have hpair : IsPair (Program.parse "[+<].,").symbols 0 3 :=
    ⟨[], [.increment, .left], [.output, .input], rfl, balanced_of_plain (by decide), rfl, rfl⟩
  rcases randomProgram_follows_grammar 6 (⟨[6, 1, 0, 2, 4, 6, 5]⟩ : Script) with
    ⟨_, rest, hguarded, hrun, -, hword, hbalanced, hpairs, hroom, -⟩
  rcases randomProgram_follows_grammar 3 (⟨[6, 5, 6, 4, 6, 1]⟩ : Script) with
    ⟨_, last, hguarded', hrun', -, -, -, -, -, hplain⟩
  rw [hrun] at hlong
  rw [hrun'] at hshort
  subst hlong hshort
  exact ⟨rest, last, hguarded, hword, hbalanced, hpair, (hpairs 0 3 hpair).1, hroom 0 rfl,
    hguarded', hplain (by decide)⟩

end TapeBreeder
