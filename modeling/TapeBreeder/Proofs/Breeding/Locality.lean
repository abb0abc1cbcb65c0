import TapeBreeder.Proofs.Brackets.Agreement
import TapeBreeder.Proofs.Breeding.Brackets
import TapeBreeder.Proofs.Random.Script

/-!
# Mutations are local

A mutation makes one edit, of a kind that has a weight. Whatever is drawn, it writes at one place or
takes away one symbol or the two brackets of a pair, and everything else stays as it is and in
order.

* `MutationKind.weight_ofDraw_pos` — only kinds with a weight are drawn.
* `MutationKind.mostLost`, `MutationKind.mostWon` — how much shorter or longer a kind of edit makes
  a program at most.
* `Edited` — what an edit of some kind may make of a row of symbols; `Edited.length_bounds` — what
  this says of its length; `surely_edited` — edits make nothing else of it.
* `mutate_stays_local` — the same of mutations, and what follows from the weights.
-/

namespace TapeBreeder

variable {σ : Type} [RandomSource σ]

/-! ## Kinds with a weight -/

namespace MutationKind

variable {options : MutateOptions}

/-- The weight of a kind. -/
def weight (options : MutateOptions) : MutationKind → Nat
  | inPlace => options.inPlace.toNat
  | addition => options.addition.toNat
  | deletion => options.deletion.toNat
  | none => options.none.toNat

/-- A kind without a weight has no share of the total. -/
theorem weight_ofDraw_pos {draw : Nat} (h : draw < totalWeight options) :
    0 < (ofDraw options draw).weight options := by
  unfold totalWeight at h
  unfold ofDraw
  split
  · next hinPlace => exact Nat.zero_lt_of_lt hinPlace
  · split
    · next haddition =>
      show 0 < options.addition.toNat
      omega
    · split
      · next hdeletion =>
        show 0 < options.deletion.toNat
        omega
      · show 0 < options.none.toNat
        omega

/-- A kind without weight is never drawn. -/
theorem surely_draw [LawfulSource σ] (hsome : 0 < totalWeight options)
    (hsize : totalWeight options < UInt32.size) :
    Surely (draw options : StateM σ MutationKind) fun kind => 0 < kind.weight options := by
  unfold draw
  rw [if_neg (Nat.ne_of_gt hsome)]
  refine (surely_weight hsome hsize).bind ?_
  intro draw hdraw
  exact surely_pure (weight_ofDraw_pos hdraw)

/-- So a kind that has been drawn is not one without weight. -/
theorem ne_of_weight_eq_zero {kind other : MutationKind} (hkind : 0 < kind.weight options)
    (hother : other.weight options = 0) : kind ≠ other := by
  rintro rfl
  omega

end MutationKind

/-! ## Lengths by kinds -/

namespace MutationKind

/-- The number of symbols that an edit takes away at most. -/
def mostLost : MutationKind → Nat
  | deletion => 2
  | _ => 0

/-- The number of symbols that an edit adds at most to a program of a given length. -/
def mostWon (length : Nat) : MutationKind → Nat
  | inPlace => length / 2 + 1
  | addition => length / 2 + 2
  | _ => 0

variable {kind : MutationKind}

theorem mostLost_le (kind : MutationKind) : kind.mostLost ≤ 2 := by
  cases kind <;> decide

/-- No kind of edit adds more than a loop around half as many symbols as there are. -/
theorem mostWon_le (length : Nat) (kind : MutationKind) : kind.mostWon length ≤ length / 2 + 2 := by
  cases kind with
  | inPlace => exact Nat.le_succ _
  | addition => exact Nat.le_refl _
  | deletion => exact Nat.zero_le _
  | none => exact Nat.zero_le _

/-- Only a deletion makes a program shorter. -/
theorem mostLost_eq_zero (h : kind ≠ .deletion) : kind.mostLost = 0 := by
  cases kind with
  | deletion => exact absurd rfl h
  | _ => rfl

/-- Only where code is written a program becomes longer. -/
theorem mostWon_eq_zero (hinPlace : kind ≠ .inPlace) (haddition : kind ≠ .addition)
    (length : Nat) : kind.mostWon length = 0 := by
  cases kind with
  | inPlace => exact absurd rfl hinPlace
  | addition => exact absurd rfl haddition
  | _ => rfl

end MutationKind

/-! ## Code that is written -/

/-- What may be written into a program of a given length: a symbol that is no bracket, or a loop
around such symbols, at least one of them and at most half as many as the program has. -/
inductive Fresh (length : Nat) : List Symbol → Prop where
  | symbol {s : Symbol} (hplain : s.isBracket = false) : Fresh length [s]
  | loop {body : List Symbol} (hsome : 0 < body.length) (hfit : body.length ≤ length / 2)
    (hplain : ∀ s ∈ body, s.isBracket = false) :
    Fresh length (.loopOpen :: body ++ [.loopClose])

/-- What is written has at least one symbol, and at most those of the largest loop. -/
theorem Fresh.length_bounds {length : Nat} {code : List Symbol} (h : Fresh length code) :
    1 ≤ code.length ∧ code.length ≤ length / 2 + 2 := by
  cases h with
  | symbol => exact ⟨Nat.le_refl 1, by simp⟩
  | loop _ hfit _ =>
    simp only [List.cons_append, List.length_cons, List.length_append, List.length_nil]
    omega

/-- In a program of at least two symbols, the body of a loop is at most half as long as the
program. -/
theorem surely_fresh [LawfulSource σ] (options : MutateOptions) {length : Nat} (h : 2 ≤ length) :
    Surely (freshCode options length : StateM σ (List Symbol)) (Fresh length) := by
  refine (surely_any _).bind ?_
  intro loop _
  cases loop with
  | true =>
    -- Half the length is at least one, so it is the range that the size is drawn from.
    refine (surely_below (by omega)).bind ?_
    intro size hsize
    refine (surely_randomLoop (size + 1)).mono ?_
    rintro _ ⟨body, rfl, hlength, hplain⟩
    exact .loop (by omega) (by omega) hplain
  | false =>
    refine surely_randomSymbol_plain.bind ?_
    intro s hs
    exact surely_pure (.symbol hs)

/-! ## Edits -/

/-- What an edit of some kind may make of a row of symbols. -/
inductive Edited (symbols : List Symbol) : MutationKind → List Symbol → Prop where
  /-- A symbol that is no bracket gives way to other code. -/
  | replaced {before after code : List Symbol} {s : Symbol} (hsplit : symbols = before ++ s :: after)
    (hplain : s.isBracket = false) (hcode : Fresh symbols.length code) :
    Edited symbols .inPlace (before ++ code ++ after)
  /-- A bracket does not. -/
  | spared {before after : List Symbol} {s : Symbol} (hsplit : symbols = before ++ s :: after)
    (hbracket : s.isBracket = true) : Edited symbols .inPlace symbols
  /-- Other code comes between two symbols, or before the first or behind the last one. -/
  | inserted {before after code : List Symbol} (hsplit : symbols = before ++ after)
    (hcode : Fresh symbols.length code) : Edited symbols .addition (before ++ code ++ after)
  /-- A symbol without partner is left out. -/
  | deleted {before after : List Symbol} {s : Symbol} (hsplit : symbols = before ++ s :: after)
    (halone : ∀ first second, IsPair symbols first second →
      first ≠ before.length ∧ second ≠ before.length) :
    Edited symbols .deletion (before ++ after)
  /-- The two brackets of a pair are left out. -/
  | unpaired {before inside after : List Symbol}
    (hsplit : symbols = before ++ .loopOpen :: (inside ++ .loopClose :: after))
    (hinside : Balanced inside) : Edited symbols .deletion (before ++ (inside ++ after))
  /-- Nothing changes. -/
  | copied : Edited symbols .none symbols

namespace Edited

variable {symbols edited : List Symbol} {kind : MutationKind}

/-- An edit loses and wins no more than its kind allows. -/
theorem length_bounds (h : Edited symbols kind edited) :
    symbols.length ≤ edited.length + kind.mostLost ∧
      edited.length ≤ symbols.length + kind.mostWon symbols.length := by
  cases h with
  -- One symbol makes room for the code.
  | replaced hsplit _ hcode =>
    have hlength := congrArg List.length hsplit
    have hbounds := hcode.length_bounds
    simp only [List.length_append, List.length_cons, MutationKind.mostLost,
      MutationKind.mostWon] at hlength ⊢
    omega
  | spared => exact ⟨Nat.le_refl _, Nat.le_add_right _ _⟩
  | inserted hsplit hcode =>
    have hlength := congrArg List.length hsplit
    have hbounds := hcode.length_bounds
    simp only [List.length_append, MutationKind.mostLost, MutationKind.mostWon] at hlength ⊢
    omega
  | deleted hsplit _ =>
    have hlength := congrArg List.length hsplit
    simp only [List.length_append, List.length_cons, MutationKind.mostLost] at hlength ⊢
    omega
  | unpaired hsplit _ =>
    have hlength := congrArg List.length hsplit
    simp only [List.length_append, List.length_cons, MutationKind.mostLost] at hlength ⊢
    omega
  | copied => exact ⟨Nat.le_refl _, Nat.le_refl _⟩

theorem eq_of_none (h : Edited symbols .none edited) : edited = symbols := by
  cases h
  rfl

/-- Of two symbols or more nothing is left only if they are a pair of brackets. -/
theorem eq_pair_of_nil (h : Edited symbols kind edited) (hnil : edited = [])
    (hlength : 2 ≤ symbols.length) : kind = .deletion ∧ symbols = [.loopOpen, .loopClose] := by
  by_cases hkind : kind = .deletion
  · refine ⟨hkind, ?_⟩
    cases h with
    | deleted hsplit _ =>
      rcases List.append_eq_nil_iff.mp hnil with ⟨rfl, rfl⟩
      rw [hsplit] at hlength
      exact absurd hlength (Nat.lt_irrefl 1)
    | unpaired hsplit _ =>
      rcases List.append_eq_nil_iff.mp hnil with ⟨rfl, hrest⟩
      rcases List.append_eq_nil_iff.mp hrest with ⟨rfl, rfl⟩
      exact hsplit
    | _ => cases hkind
  · -- Other kinds of edits do not make a program shorter.
    have hle := h.length_bounds.1
    rw [hnil, List.length_nil, MutationKind.mostLost_eq_zero hkind] at hle
    omega

end Edited

/-! ## Drawn edits -/

section

variable [LawfulSource σ] (options : MutateOptions) {p : Program}

theorem Program.exists_split {index : Nat} (h : index < p.length) :
    ∃ before s after, p.symbols = before ++ s :: after ∧ index = before.length ∧
      p.symbols[index]? = some s := by
  have hsymbol := List.getElem?_eq_getElem h
  rcases eq_append_of_getElem? hsymbol with ⟨before, after, hsplit, hbefore⟩
  exact ⟨before, _, after, hsplit, hbefore.symm, hsymbol⟩

/-- Whatever is drawn, either a bracket is spared or another symbol gives way. -/
theorem surely_substitute (h : 2 ≤ p.length) :
    Surely (p.substitute options : StateM σ (List Symbol)) (Edited p.symbols .inPlace) := by
  refine (surely_below (by omega)).bind ?_
  intro index hindex
  rcases Program.exists_split hindex with ⟨before, s, after, hsplit, hbefore, hsymbol⟩
  rw [hsymbol, Option.any_some]
  split
  · next hbracket => exact surely_pure (.spared hsplit hbracket)
  · next hplain =>
    refine (surely_fresh options h).bind ?_
    intro code hcode
    have hreplaced : replaceAt p.symbols index code = before ++ code ++ after := by
      unfold replaceAt
      rw [hsplit, hbefore, List.take_left, ← List.drop_drop, List.drop_left, List.drop_one,
        List.tail_cons]
    rw [hreplaced]
    exact surely_pure (.replaced hsplit (Bool.eq_false_iff.mpr hplain) hcode)

/-- Whatever is drawn, code is inserted somewhere. -/
theorem surely_extend (h : 2 ≤ p.length) :
    Surely (p.extend options : StateM σ (List Symbol)) (Edited p.symbols .addition) := by
  refine (surely_any _).bind ?_
  intro index _
  refine (surely_fresh options h).bind ?_
  intro code hcode
  exact surely_pure (.inserted (List.take_append_drop index p.symbols).symm hcode)

/-- What is deleted is a symbol without partner, or a pair of brackets. -/
theorem edited_delete {index : Nat} (h : index < p.length) :
    Edited p.symbols .deletion (p.delete index) := by
  cases hpartner : p.partner? index with
  | none =>
    rcases Program.exists_split h with ⟨before, s, after, hsplit, hbefore, -⟩
    rw [Program.delete_of_partner?_eq_none hpartner, hsplit, hbefore, eraseIdx_length_append,
      ← hsplit]
    refine .deleted hsplit ?_
    intro first second hpair
    rw [← hbefore]
    -- A pair would have been found from either of its brackets.
    constructor
    · rintro rfl
      rw [hpair.partner?_first] at hpartner
      cases hpartner
    · rintro rfl
      rw [hpair.partner?_second] at hpartner
      cases hpartner
  | some partner =>
    rcases Program.exists_delete_eq hpartner with ⟨before, inside, after, hsplit, hinside, hdeleted⟩
    rw [hdeleted]
    exact .unpaired hsplit hinside

theorem surely_shrink (h : 2 ≤ p.length) :
    Surely (p.shrink : StateM σ (List Symbol)) (Edited p.symbols .deletion) := by
  refine (surely_below (by omega)).bind ?_
  intro index hindex
  exact surely_pure (edited_delete hindex)

/-- An edit of each kind does what its kind says. -/
theorem surely_edited (h : 2 ≤ p.length) (kind : MutationKind) :
    Surely (p.edit options kind : StateM σ (List Symbol)) (Edited p.symbols kind) := by
  cases kind with
  | inPlace => exact surely_substitute options h
  | addition => exact surely_extend options h
  | deletion => exact surely_shrink h
  | none => exact surely_pure .copied

end

/-! ## Mutations -/

/-- What a mutation may make of a program of at least two symbols by an edit of some kind. One that
has lost a pair of brackets, which were its only symbols, gets a symbol that is no bracket. -/
inductive Program.Mutated (p : Program) : MutationKind → Program → Prop where
  | edited {kind : MutationKind} {q : Program} (hedited : Edited p.symbols kind q.symbols)
    (hsome : 0 < q.length) : Mutated p kind q
  | refilled {s : Symbol} (hpair : p.symbols = [.loopOpen, .loopClose])
    (hplain : s.isBracket = false) : Mutated p .deletion ⟨[s]⟩

namespace Program.Mutated

variable {p q : Program} {kind : MutationKind}

/-- A mutation keeps within the bounds of its edit, and is not empty. -/
theorem length_bounds (h : p.Mutated kind q) :
    1 ≤ q.length ∧ p.length ≤ q.length + kind.mostLost ∧
      q.length ≤ p.length + kind.mostWon p.length := by
  cases h with
  | edited hedited hsome => exact ⟨hsome, hedited.length_bounds⟩
  | refilled hpair _ =>
    have hlength : p.length = 2 := congrArg List.length hpair
    rw [hlength]
    exact ⟨Nat.le_refl 1, Nat.le_succ 2, Nat.le_succ 1⟩

/-- Without an edit a program is its own mutation. -/
theorem eq_of_none (h : p.Mutated .none q) : q = p := by
  cases h with
  | edited hedited _ =>
    rcases p with ⟨symbols⟩
    rcases q with ⟨edited⟩
    exact congrArg Program.mk hedited.eq_of_none

end Program.Mutated

/-- A mutation of at least two symbols is made by an edit of a kind with a weight. -/
theorem surely_mutated [LawfulSource σ] {options : MutateOptions} {p : Program}
    (hlength : 2 ≤ p.length) (hsome : 0 < MutationKind.totalWeight options)
    (hsize : MutationKind.totalWeight options < UInt32.size) :
    Surely (p.mutate options : StateM σ Program) fun q =>
      ∃ kind, 0 < kind.weight options ∧ p.Mutated kind q := by
  unfold Program.mutate
  rw [if_neg (Nat.not_le_of_lt hlength)]
  refine (MutationKind.surely_draw hsome hsize).bind ?_
  intro kind hkind
  refine (surely_edited options hlength kind).bind ?_
  intro symbols hedited
  -- Only the deletion of a pair of brackets can have left nothing.
  split
  · next hempty =>
    rcases hedited.eq_pair_of_nil (List.isEmpty_iff.mp hempty) hlength with ⟨rfl, hpair⟩
    refine surely_randomSymbol_plain.bind ?_
    intro s hs
    exact surely_pure ⟨_, hkind, .refilled hpair hs⟩
  · next hempty =>
    rw [List.isEmpty_iff] at hempty
    exact surely_pure ⟨kind, hkind, .edited hedited (List.length_pos_iff.mpr hempty)⟩

/-- A program of at least two symbols is mutated, with some weights whose total fits into 32 bits
and is not zero. Whatever is drawn, one edit of a kind with a weight has been made: code has been
written at one place, or one symbol or the two brackets of a pair have been left out. So at most two
symbols are lost and at most a loop around half as many symbols as the program has is won; without
the weight of deletions nothing is lost, without the weights of the edits that write nothing is won,
and with no other weight than that of doing nothing the program stays what it is. -/
theorem mutate_stays_local [LawfulSource σ] (options : MutateOptions) (p : Program) (source : σ)
    (hlength : 2 ≤ p.length) (hsome : 0 < MutationKind.totalWeight options)
    (hsize : MutationKind.totalWeight options < UInt32.size) :
    let q := ((p.mutate options).run source).1
    (max 1 (p.length - 2) ≤ q.length ∧ q.length ≤ p.length + p.length / 2 + 2) ∧
      (options.deletion = 0 → p.length ≤ q.length) ∧
      (options.inPlace = 0 → options.addition = 0 → q.length ≤ p.length) ∧
      (options.inPlace = 0 → options.addition = 0 → options.deletion = 0 → q = p) ∧
      ∃ kind, 0 < kind.weight options ∧ p.Mutated kind q := by
  intro q
  obtain ⟨kind, hkind, hmutated⟩ : ∃ kind, 0 < kind.weight options ∧ p.Mutated kind q :=
    surely_mutated hlength hsome hsize source
  -- The kind that was drawn has a weight, so a weight of zero excludes its kind.
  have hne : ∀ other : MutationKind, other.weight options = 0 → kind ≠ other := by
    intro other hother
    exact MutationKind.ne_of_weight_eq_zero hkind hother
  rcases hmutated.length_bounds with ⟨hpos, hlost, hwon⟩
  refine ⟨?_, ?_, ?_, ?_, kind, hkind, hmutated⟩
  · have hlost_le := kind.mostLost_le
    have hwon_le := kind.mostWon_le p.length
    omega
  · intro hdeletion
    rw [MutationKind.mostLost_eq_zero (hne .deletion (congrArg UInt32.toNat hdeletion))] at hlost
    exact hlost
  · intro hinPlace haddition
    rw [MutationKind.mostWon_eq_zero (hne .inPlace (congrArg UInt32.toNat hinPlace))
      (hne .addition (congrArg UInt32.toNat haddition))] at hwon
    exact hwon
  · intro hinPlace haddition hdeletion
    have hinPlace := hne .inPlace (congrArg UInt32.toNat hinPlace)
    have haddition := hne .addition (congrArg UInt32.toNat haddition)
    have hdeletion := hne .deletion (congrArg UInt32.toNat hdeletion)
    cases kind with
    | inPlace => exact absurd rfl hinPlace
    | addition => exact absurd rfl haddition
    | deletion => exact absurd rfl hdeletion
    | none => exact hmutated.eq_of_none

/-- The largest loop that suits five symbols makes nine of them; a pair of brackets around one
symbol is taken away, and a pair of brackets alone is replaced by the symbol that is drawn. -/
theorem mutate_stays_local_extremes :
    let growing : MutateOptions :=
      { inPlace := 0, addition := 7, deletion := 0, none := 0, loopProbability := .ofRatio false 1 1 }
    let shrinking : MutateOptions := { inPlace := 0, addition := 0, deletion := 7, none := 2 }
    let grown := (((Program.parse "[+-].").mutate growing).run (⟨[6, 1, 0, 1, 3, 4]⟩ : Script)).1
    let shrunk := (((Program.parse "[+]").mutate shrinking).run (⟨[6, 2]⟩ : Script)).1
    let refilled := (((Program.parse "[]").mutate shrinking).run (⟨[6, 0, 4]⟩ : Script)).1
    grown = Program.parse "[[>.]+-]." ∧ 5 ≤ grown.length ∧ grown.length ≤ 5 + 5 / 2 + 2 ∧
      shrunk = Program.parse "+" ∧ max 1 (3 - 2) ≤ shrunk.length ∧ shrunk.length ≤ 3 ∧
      refilled = Program.parse "." ∧
      ∃ kind, 0 < kind.weight shrinking ∧ (Program.parse "[]").Mutated kind refilled := by
  intro growing shrinking grown shrunk refilled
  rcases mutate_stays_local growing (Program.parse "[+-].") (⟨[6, 1, 0, 1, 3, 4]⟩ : Script)
    (by decide) (by decide) (by decide) with ⟨⟨-, hwon⟩, hkept, -⟩
  rcases mutate_stays_local shrinking (Program.parse "[+]") (⟨[6, 2]⟩ : Script)
    (by decide) (by decide) (by decide) with ⟨⟨hlost, -⟩, -, hnone, -⟩
  rcases mutate_stays_local shrinking (Program.parse "[]") (⟨[6, 0, 4]⟩ : Script)
    (by decide) (by decide) (by decide) with ⟨-, -, -, -, hmutated⟩
  exact ⟨by decide +kernel, hkept rfl, hwon, by decide +kernel, hlost, hnone rfl rfl,
    by decide +kernel, hmutated⟩

end TapeBreeder
