import Mathlib.Computability.RegularExpressions
import TapeBreeder.Proofs.Structured.Syntax

/-!
# Flat code

Flat code is a row of symbols and loops in which loops do not nest and none of them is empty. With
`x` for any symbol that is no bracket, it is described by the regular expression `(x | [ x+ ])*`.

* `flatCode`, `Flat` — the regular expression, and the same rows built from their front.
* `flat_iff_mem_matches'` — the two agree.
* `Flat.balanced`, `Flat.of_isPair` — flat code is balanced, and between the two brackets of a pair
  there is something, but no bracket.
-/

namespace TapeBreeder

open RegularExpression (char)

/-! ## The regular expression -/

/-- One symbol that is no bracket: `x`. -/
def plainSymbol : RegularExpression Symbol :=
  (Symbol.plain.map char).sum

/-- A loop around a body that is not empty and has no brackets: `[ x+ ]`. -/
def flatLoop : RegularExpression Symbol :=
  char .loopOpen * (plainSymbol * plainSymbol.star) * char .loopClose

/-- Symbols and loops in a row: `(x | [ x+ ])*`. -/
def flatCode : RegularExpression Symbol :=
  (plainSymbol + flatLoop).star

/-- A sum of characters matches each of them. -/
theorem mem_matches'_sum_char {α : Type} {chars : List α} {w : List α} :
    w ∈ (chars.map char).sum.matches' ↔ ∃ a ∈ chars, w = [a] := by
  induction chars with
  | nil => simp [Language.notMem_zero]
  | cons a chars ih =>
    rw [List.map_cons, List.sum_cons, RegularExpression.matches'_add, Language.mem_add, ih,
      RegularExpression.matches'_char, List.exists_mem_cons_iff]
    rfl

theorem mem_matches'_plainSymbol {w : List Symbol} :
    w ∈ plainSymbol.matches' ↔ ∃ s, s.isBracket = false ∧ w = [s] := by
  unfold plainSymbol
  rw [mem_matches'_sum_char]
  simp only [Symbol.mem_plain_iff]

/-- The expression `x*` matches rows without brackets. -/
theorem mem_matches'_star_plainSymbol {w : List Symbol} :
    w ∈ plainSymbol.star.matches' ↔ ∀ s ∈ w, s.isBracket = false := by
  rw [RegularExpression.matches'_star, Language.mem_kstar]
  constructor
  · rintro ⟨pieces, rfl, hpieces⟩ s hs
    rcases List.mem_flatten.mp hs with ⟨piece, hpiece, hs⟩
    rcases mem_matches'_plainSymbol.mp (hpieces piece hpiece) with ⟨t, ht, rfl⟩
    rwa [List.mem_singleton.mp hs]
  · intro hplain
    -- A row without brackets is cut into its symbols.
    refine ⟨w.map fun s => [s], ?_, ?_⟩
    · rw [← List.flatMap_def, List.flatMap_singleton']
    · intro piece hpiece
      rcases List.mem_map.mp hpiece with ⟨s, hs, rfl⟩
      exact mem_matches'_plainSymbol.mpr ⟨s, hplain s hs, rfl⟩

/-- The expression `[ x+ ]` matches loops around a body that is not empty and has no brackets. -/
theorem mem_matches'_flatLoop {w : List Symbol} :
    w ∈ flatLoop.matches' ↔ ∃ body, w = .loopOpen :: body ++ [.loopClose] ∧ body ≠ [] ∧
      ∀ s ∈ body, s.isBracket = false := by
  unfold flatLoop
  simp only [RegularExpression.matches'_mul, RegularExpression.matches'_char, Language.mem_mul]
  constructor
  · rintro ⟨_, ⟨_, rfl, _, ⟨_, hfirst, rest, hrest, rfl⟩, rfl⟩, _, rfl, rfl⟩
    rcases mem_matches'_plainSymbol.mp hfirst with ⟨s, hs, rfl⟩
    refine ⟨s :: rest, rfl, List.cons_ne_nil _ _, ?_⟩
    exact List.forall_mem_cons.mpr ⟨hs, mem_matches'_star_plainSymbol.mp hrest⟩
  · rintro ⟨body, rfl, hne, hplain⟩
    -- The body has a first symbol, for the `x` of `x+` that has to be there.
    rcases List.exists_cons_of_ne_nil hne with ⟨s, rest, rfl⟩
    rcases List.forall_mem_cons.mp hplain with ⟨hs, hrest⟩
    have hbody : s :: rest ∈ plainSymbol.matches' * plainSymbol.star.matches' :=
      Language.append_mem_mul (mem_matches'_plainSymbol.mpr ⟨s, hs, rfl⟩)
        (mem_matches'_star_plainSymbol.mpr hrest)
    exact ⟨_, ⟨_, rfl, _, Language.mem_mul.mp hbody, rfl⟩, _, rfl, rfl⟩

/-! ## Flat rows -/

/-- Rows of symbols and loops, where the loops have bodies without brackets. -/
inductive Flat : List Symbol → Prop where
  | nil : Flat []
  | plain {s : Symbol} {rest : List Symbol} (hs : s.isBracket = false) (hrest : Flat rest) :
    Flat (s :: rest)
  | loop {body rest : List Symbol} (hne : body ≠ []) (hbody : ∀ s ∈ body, s.isBracket = false)
    (hrest : Flat rest) : Flat (.loopOpen :: (body ++ .loopClose :: rest))

/-- A row is flat exactly when the regular expression matches it. -/
theorem flat_iff_mem_matches' {w : List Symbol} : Flat w ↔ w ∈ flatCode.matches' := by
  unfold flatCode
  rw [RegularExpression.matches'_star, RegularExpression.matches'_add, Language.mem_kstar]
  constructor
  · intro h
    -- By induction on the row, whose front becomes the first piece.
    induction h with
    | nil => exact ⟨[], rfl, by simp⟩
    | @plain s rest hs _ ih =>
      rcases ih with ⟨pieces, rfl, hpieces⟩
      refine ⟨[s] :: pieces, rfl, List.forall_mem_cons.mpr ⟨?_, hpieces⟩⟩
      exact Or.inl (mem_matches'_plainSymbol.mpr ⟨s, hs, rfl⟩)
    | @loop body rest hne hbody _ ih =>
      rcases ih with ⟨pieces, rfl, hpieces⟩
      refine ⟨(.loopOpen :: body ++ [.loopClose]) :: pieces, by simp,
        List.forall_mem_cons.mpr ⟨?_, hpieces⟩⟩
      exact Or.inr (mem_matches'_flatLoop.mpr ⟨body, rfl, hne, hbody⟩)
  · rintro ⟨pieces, rfl, hpieces⟩
    -- By induction on the pieces, each of which is a symbol or a loop.
    induction pieces with
    | nil => exact .nil
    | cons piece pieces ih =>
      rcases List.forall_mem_cons.mp hpieces with ⟨hpiece, hpieces⟩
      have hrest : Flat pieces.flatten := ih hpieces
      rw [List.flatten_cons]
      rcases hpiece with hsymbol | hloop
      · rcases mem_matches'_plainSymbol.mp hsymbol with ⟨s, hs, rfl⟩
        exact .plain hs hrest
      · rcases mem_matches'_flatLoop.mp hloop with ⟨body, rfl, hne, hbody⟩
        rw [List.append_assoc]
        exact .loop hne hbody hrest

namespace Flat

/-- Flat code is balanced: its loops are closed, and their bodies have no brackets. -/
theorem balanced {w : List Symbol} (h : Flat w) : Balanced w := by
  induction h with
  | nil => exact .nil
  | plain hs _ ih => exact .plain hs ih
  | loop _ hbody _ ih => exact .loop (balanced_of_plain hbody) ih

/-- Where no loop begins there are no brackets. -/
theorem isBracket_eq_false {w : List Symbol} (h : Flat w) (hopen : Symbol.loopOpen ∉ w) :
    ∀ s ∈ w, s.isBracket = false := by
  induction h with
  | nil => simp
  | plain hs _ ih =>
    exact List.forall_mem_cons.mpr ⟨hs, ih fun hmem => hopen (List.mem_cons_of_mem _ hmem)⟩
  | loop => exact absurd List.mem_cons_self hopen

/-- Each `[` of flat code is followed by symbols without brackets, at least one of them, and then
by the `]` of its loop. -/
theorem exists_body {w before behind : List Symbol} (h : Flat w)
    (hsplit : w = before ++ .loopOpen :: behind) :
    ∃ body rest, behind = body ++ .loopClose :: rest ∧ body ≠ [] ∧
      ∀ s ∈ body, s.isBracket = false := by
  induction h generalizing before with
  | nil => exact absurd hsplit (by simp)
  | @plain s rest hs _ ih =>
    cases before with
    | nil =>
      rcases List.cons.inj hsplit with ⟨rfl, -⟩
      -- A symbol that is no bracket is not the `[`.
      cases hs
    | cons t before =>
      exact ih (List.cons.inj hsplit).2
  | @loop body rest hne hbody _ ih =>
    cases before with
    | nil => exact ⟨body, rest, (List.cons.inj hsplit).2.symm, hne, hbody⟩
    | cons t before =>
      -- The `[` is not in the body of this loop, so it stands behind the loop.
      rcases List.append_eq_append_iff.mp (List.cons.inj hsplit).2 with
        ⟨us, hus, hrest⟩ | ⟨us, hus, hrest⟩
      · cases us with
        | nil => cases (List.cons.inj hrest).1
        | cons u us => exact ih (List.cons.inj hrest).2
      · cases us with
        | nil => cases (List.cons.inj hrest).1
        | cons u us =>
          rcases List.cons.inj hrest with ⟨rfl, -⟩
          -- The body would hold a `[`, but it has no brackets.
          have hplain := hbody .loopOpen (by rw [hus]; simp)
          cases hplain

/-- Between the two brackets of a pair there is something, but no bracket. -/
theorem of_isPair {w : List Symbol} {first second : Nat} (h : Flat w)
    (hpair : IsPair w first second) :
    first + 1 < second ∧
      ∀ i s, first < i → i < second → w[i]? = some s → s.isBracket = false := by
  rcases hpair with ⟨before, body, rest, rfl, hbalanced, rfl, rfl⟩
  rcases h.exists_body rfl with ⟨body', rest', hsplit, hne, hplain⟩
  -- What is balanced and ends at the `]` is the body.
  rcases hbalanced.append_close_inj (balanced_of_plain hplain) hsplit with ⟨rfl, -⟩
  constructor
  · have hpos := List.length_pos_of_ne_nil hne
    omega
  · intro i s hfirst hsecond hs
    apply hplain
    rcases Nat.exists_eq_add_of_lt hfirst with ⟨k, rfl⟩
    have hk : k < body.length := by omega
    rw [show before.length + k + 1 = before.length + (k + 1) by omega,
      List.getElem?_append_right (Nat.le_add_right _ _), Nat.add_sub_cancel_left,
      List.getElem?_cons_succ, List.getElem?_append_left hk] at hs
    exact List.mem_of_getElem? hs

end Flat

end TapeBreeder
