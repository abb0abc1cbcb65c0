import TapeBreeder.Breeding.Crossover
import TapeBreeder.Breeding.Mutation
import TapeBreeder.Proofs.Brackets.Leftover
import TapeBreeder.Proofs.Breeding.Generation

/-!
# What breeding does to brackets

* `surely_randomProgram` — random programs are balanced.
* `surely_mutate` — a mutation leaves over no more brackets of either kind than there were, and
  never leaves a program empty. So it keeps programs loadable (`surely_isLoadable_mutate`).
* `isLoadable_crossAt` — of the two children of loadable parents at least one is loadable: the
  one whose head has opened more loops can take either tail.
-/

namespace TapeBreeder

variable {σ : Type} [RandomSource σ]

/-! ## Random code -/

/-- A random loop has no brackets in its body, so it is balanced. -/
theorem surely_randomLoop_balanced (size : Nat) :
    Surely (randomLoop size : StateM σ (List Symbol)) Balanced := by
  refine (surely_randomLoop size).mono ?_
  rintro _ ⟨body, rfl, -, hplain⟩
  exact .loop (balanced_of_plain hplain) .nil

/-- Random programs are balanced, from any source: no range has to be kept for that. -/
theorem surely_randomProgram (length : Nat) :
    Surely (randomProgram length : StateM σ Program) fun p => Balanced p.symbols := by
  refine surely_randomProgram_of ((surely_drawn (fun _ _ => surely_any _) length).mono ?_)
  intro symbols hdrawn
  exact hdrawn.flat.balanced

/-- What is written into a program is balanced, whether it is a loop or a symbol. -/
theorem surely_freshCode (options : MutateOptions) (length : Nat) :
    Surely (freshCode options length : StateM σ (List Symbol)) Balanced := by
  refine (surely_any _).bind ?_
  intro loop _
  cases loop with
  | true =>
    refine (surely_any _).bind ?_
    intro body _
    exact surely_randomLoop_balanced (body + 1)
  | false =>
    refine surely_randomSymbol_plain.bind ?_
    intro s hs
    exact surely_pure (.plain hs .nil)

/-! ## Edits -/

/-- Balanced code can be inserted at any place without anything more being left over. -/
theorem leftover_insertAt {code : List Symbol} (h : Balanced code) (xs : List Symbol)
    (index : Nat) : leftover (insertAt xs index code) = leftover xs := by
  unfold insertAt
  rw [leftover_append_balanced_append h, List.take_append_drop]

/-- Balanced code can take the place of a symbol that is no bracket. -/
theorem leftover_replaceAt {code : List Symbol} (h : Balanced code) {xs : List Symbol}
    {index : Nat} (hplain : (xs[index]?).any Symbol.isBracket = false) :
    leftover (replaceAt xs index code) = leftover xs := by
  unfold replaceAt
  rw [leftover_append_balanced_append h]
  cases hs : xs[index]? with
  | none =>
    -- Behind the end nothing is replaced, and the code is put there.
    have hlength := List.getElem?_eq_none_iff.mp hs
    rw [List.take_of_length_le hlength, List.drop_of_length_le (Nat.le_succ_of_le hlength),
      List.append_nil]
  | some s =>
    rw [hs, Option.any_some] at hplain
    rcases eq_append_of_getElem? hs with ⟨ys, zs, rfl, rfl⟩
    have hdrop : (ys ++ s :: zs).drop (ys.length + 1) = zs := by simp [List.drop_append]
    rw [List.take_left, hdrop, leftover_append, leftover_append, leftover_cons_plain hplain]

theorem eraseIdx_length_append (xs ys : List Symbol) (s : Symbol) :
    (xs ++ s :: ys).eraseIdx xs.length = xs ++ ys := by
  rw [List.eraseIdx_append_of_length_le (Nat.le_refl _), Nat.sub_self, List.eraseIdx_zero,
    List.tail_cons]

/-- Deleting both brackets of a pair leaves what is before, between and behind them. -/
theorem eraseIdx_pair (xs ys zs : List Symbol) :
    ((xs ++ .loopOpen :: (ys ++ .loopClose :: zs)).eraseIdx (xs.length + ys.length + 1)).eraseIdx
      xs.length = xs ++ (ys ++ zs) := by
  have hsecond : (xs ++ .loopOpen :: (ys ++ .loopClose :: zs)).eraseIdx (xs.length + ys.length + 1)
      = xs ++ .loopOpen :: (ys ++ zs) := by
    have herase := eraseIdx_length_append (xs ++ .loopOpen :: ys) zs .loopClose
    rwa [List.append_assoc, List.cons_append, List.length_append, List.length_cons,
      List.append_assoc, List.cons_append] at herase
  rw [hsecond, eraseIdx_length_append]

/-- Without the two brackets of a pair as much is left over as with them: with them, the pair and
its body are one balanced row. -/
theorem leftover_unpair {ys : List Symbol} (h : Balanced ys) (xs zs : List Symbol) :
    leftover (xs ++ (ys ++ zs)) = leftover (xs ++ .loopOpen :: (ys ++ .loopClose :: zs)) := by
  have hwithout := leftover_append_balanced_append h xs zs
  have hwith := leftover_append_balanced_append (.loop h .nil) xs zs
  rw [List.append_assoc] at hwithout hwith
  rw [hwithout, ← hwith, List.cons_append, List.append_assoc, List.cons_append, List.nil_append]

theorem Program.delete_of_partner?_eq_none {p : Program} {index : Nat}
    (h : p.partner? index = none) : p.delete index = p.symbols.eraseIdx index := by
  rw [delete, h]

/-- Where there is a bracket with a partner, both are deleted. -/
theorem Program.exists_delete_eq {p : Program} {index partner : Nat}
    (h : p.partner? index = some partner) :
    ∃ xs ys zs, p.symbols = xs ++ .loopOpen :: (ys ++ .loopClose :: zs) ∧ Balanced ys ∧
      p.delete index = xs ++ (ys ++ zs) := by
  have hpair : IsPair p.symbols (min index partner) (max index partner) := by
    rcases isPair_of_partner? h with hpair | hpair
    · rwa [Nat.min_eq_left (Nat.le_of_lt hpair.lt), Nat.max_eq_right (Nat.le_of_lt hpair.lt)]
    · rwa [Nat.min_eq_right (Nat.le_of_lt hpair.lt), Nat.max_eq_left (Nat.le_of_lt hpair.lt)]
  rcases hpair with ⟨xs, ys, zs, hsymbols, hys, hfirst, hsecond⟩
  refine ⟨xs, ys, zs, hsymbols, hys, ?_⟩
  rw [delete, h]
  show (p.symbols.eraseIdx (max index partner)).eraseIdx (min index partner) = _
  rw [hfirst, hsecond, hsymbols, eraseIdx_pair]

/-- Deleting a bracket without a partner leaves over one bracket less. -/
theorem leftover_eraseIdx_le {p : Program} {index : Nat} (h : p.partner? index = none) :
    leftover (p.symbols.eraseIdx index) ≤ leftover p.symbols := by
  cases hs : p.symbols[index]? with
  | none =>
    rw [List.eraseIdx_of_length_le (List.getElem?_eq_none_iff.mp hs)]
    exact Leftover.le_refl _
  | some s =>
    rcases p with ⟨symbols⟩
    rcases eq_append_of_getElem? hs with ⟨xs, zs, rfl, rfl⟩
    rw [eraseIdx_length_append, leftover_append, leftover_append, leftover_cons]
    rcases Program.symbol_cases s with rfl | rfl | hplain
    · -- No `]` behind the `[` waits for it, so without it only the `[` itself is missing.
      have hzs := closes_eq_zero_of_partner?_eq_none h
      constructor <;> simp only [Leftover.closes_append, Leftover.opens_append,
        Symbol.leftover] <;> omega
    · -- No `[` before the `]` waits for it.
      have hxs := opens_eq_zero_of_partner?_eq_none h
      constructor <;> simp only [Leftover.closes_append, Leftover.opens_append,
        Symbol.leftover] <;> omega
    · rw [Symbol.leftover_plain hplain, Leftover.zero_append]
      exact Leftover.le_refl _

/-- Whatever is deleted, no more is left over than before. -/
theorem leftover_delete_le (p : Program) (index : Nat) :
    leftover (p.delete index) ≤ leftover p.symbols := by
  cases h : p.partner? index with
  | none =>
    rw [Program.delete_of_partner?_eq_none h]
    exact leftover_eraseIdx_le h
  | some partner =>
    rcases Program.exists_delete_eq h with ⟨xs, ys, zs, hsymbols, hys, hdelete⟩
    rw [hdelete, hsymbols, leftover_unpair hys]
    exact Leftover.le_refl _

/-! ## Mutation -/

/-- Of all kinds of edits, only a deletion can change what is left over, and it leaves no more. -/
theorem surely_edit (options : MutateOptions) (p : Program) (kind : MutationKind) :
    Surely (p.edit options kind : StateM σ (List Symbol)) fun symbols =>
      leftover symbols ≤ leftover p.symbols := by
  cases kind with
  | inPlace =>
    refine (surely_any _).bind ?_
    intro index _
    split
    · exact surely_pure (Leftover.le_refl _)
    · next hplain =>
      -- The symbol that is replaced is no bracket; a bracket would have been kept.
      refine (surely_freshCode options _).bind ?_
      intro code hcode
      refine surely_pure ?_
      rw [leftover_replaceAt hcode (Bool.eq_false_iff.mpr hplain)]
      exact Leftover.le_refl _
  | addition =>
    refine (surely_any _).bind ?_
    intro index _
    refine (surely_freshCode options _).bind ?_
    intro code hcode
    refine surely_pure ?_
    rw [leftover_insertAt hcode]
    exact Leftover.le_refl _
  | deletion =>
    refine (surely_any _).bind ?_
    intro index _
    exact surely_pure (leftover_delete_le p index)
  | none => exact surely_pure (Leftover.le_refl _)

/-- A mutation leaves over no more brackets than there were, and leaves no program empty. -/
theorem surely_mutate (options : MutateOptions) (p : Program) :
    Surely (p.mutate options : StateM σ Program) fun q =>
      q.symbols ≠ [] ∧ leftover q.symbols ≤ leftover p.symbols := by
  unfold Program.mutate
  split
  · -- A program that is too short to be edited grows by a symbol that is no bracket.
    refine surely_randomSymbol_plain.bind ?_
    intro s hs
    refine surely_pure ⟨by simp, ?_⟩
    rw [leftover_append, leftover_cons_plain hs, leftover_nil, Leftover.append_zero]
    exact Leftover.le_refl _
  · refine (surely_any _).bind ?_
    intro kind _
    refine (surely_edit options p kind).bind ?_
    intro symbols hsymbols
    split
    · -- The last symbol has been deleted, and another one takes its place.
      refine surely_randomSymbol_plain.bind ?_
      intro s hs
      refine surely_pure ⟨by simp, ?_⟩
      rw [leftover_cons_plain hs]
      exact Leftover.zero_le _
    · next hempty => exact surely_pure ⟨by simpa using hempty, hsymbols⟩

/-- A mutation of a program that can be loaded can be loaded. -/
theorem surely_isLoadable_mutate (options : MutateOptions) {p : Program} (h : p.isLoadable) :
    Surely (p.mutate options : StateM σ Program) fun q => q.isLoadable := by
  refine (surely_mutate options p).mono ?_
  rintro q ⟨-, hcloses, -⟩
  rw [Program.isLoadable_iff_closes] at h ⊢
  rw [h] at hcloses
  exact Nat.le_zero.mp hcloses

/-! ## Crossover -/

/-- A head that leaves no `]` over takes a tail that has no more `]`s over than it opens loops. -/
theorem isLoadable_append_iff (xs ys : List Symbol) :
    (Program.mk (xs ++ ys)).isLoadable ↔
      (leftover xs).closes = 0 ∧ (leftover ys).closes ≤ (leftover xs).opens := by
  rw [Program.isLoadable_iff_closes, leftover_append, Leftover.closes_append]
  omega

/-- If both parents can be loaded, so can at least one of the children, wherever they are
crossed. -/
theorem isLoadable_crossAt {a b : Program} (ha : a.isLoadable) (hb : b.isLoadable)
    (point : Nat) : (a.crossAt b point).1.isLoadable ∨ (a.crossAt b point).2.isLoadable := by
  have hsplit : ∀ p : Program, p.isLoadable →
      (Program.mk (p.symbols.take point ++ p.symbols.drop point)).isLoadable := by
    intro p hp
    rwa [List.take_append_drop]
  rcases (isLoadable_append_iff _ _).mp (hsplit a ha) with ⟨hahead, hatail⟩
  rcases (isLoadable_append_iff _ _).mp (hsplit b hb) with ⟨hbhead, hbtail⟩
  unfold Program.crossAt
  rw [isLoadable_append_iff, isLoadable_append_iff]
  -- One of the two heads opens at least as many loops as the other.
  omega

/-- Whatever point is drawn, one of the children can be loaded. -/
theorem surely_crossover {a b : Program} (ha : a.isLoadable) (hb : b.isLoadable) :
    Surely (a.crossover b : StateM σ (Program × Program)) fun children =>
      children.1.isLoadable ∨ children.2.isLoadable := by
  unfold Program.crossover
  split
  · -- One parent is a single symbol, so that the first child is both parents joined.
    refine surely_pure (Or.inl ?_)
    rw [Program.isLoadable_iff_closes] at ha hb ⊢
    rw [Program.symbols_append, leftover_append, Leftover.closes_append, ha, hb]
    omega
  · refine (surely_any _).bind ?_
    intro point _
    exact surely_pure (isLoadable_crossAt ha hb point)

end TapeBreeder
