import Mathlib.Algebra.BigOperators.Group.Multiset.Defs
import Mathlib.Data.Sym.Sym2
import TapeBreeder.Proofs.Breeding.Crossover
import TapeBreeder.Proofs.Population.Phases

/-!
# Symbols are only exchanged

Two programs exchange what follows a point. Whatever the one loses at a place, the other one gains
there, so that exchanging the same once more undoes it, and so that crossing whole populations
neither makes symbols nor loses any.

* `Program.sym2_crossAt` — the symbols at a place stay there, in one child or in the other.
* `Program.crossAt_crossAt` — crossing the children at the same point gives the parents back.
* `symbolsOf`, `surely_symbolsOf_recombine` — all symbols of a population, and of the children of
  two populations.
* `recombination_conserves_symbols` — all of it, of whatever is drawn, and the cut back to size.
-/

namespace TapeBreeder

/-! ## Crossing at a point -/

namespace Program

variable {a b : Program} {point : Nat}

/-- A child has the symbols of the one parent up to the point. -/
theorem take_crossAt (h : point ≤ a.length) :
    (a.crossAt b point).1.symbols.take point = a.symbols.take point := by
  apply List.take_left'
  rw [List.length_take]
  exact Nat.min_eq_left h

/-- And those of the other one behind it. -/
theorem drop_crossAt (h : point ≤ a.length) :
    (a.crossAt b point).1.symbols.drop point = b.symbols.drop point := by
  apply List.drop_left'
  rw [List.length_take]
  exact Nat.min_eq_left h

/-- The children change places with the parents. -/
theorem snd_crossAt (a b : Program) (point : Nat) :
    (a.crossAt b point).2 = (b.crossAt a point).1 :=
  rfl

/-- A child is as long as the parent whose tail it has. -/
theorem length_crossAt (ha : point ≤ a.length) (hb : point ≤ b.length) :
    (a.crossAt b point).1.length = b.length := by
  have hchild := congrArg List.length
    (List.take_append_drop point (a.crossAt b point).1.symbols)
  have hparent := congrArg List.length (List.take_append_drop point b.symbols)
  rw [take_crossAt ha, drop_crossAt ha, List.length_append, List.length_take] at hchild
  rw [List.length_append, List.length_take] at hparent
  unfold length at *
  omega

theorem getElem?_crossAt_of_lt (ha : point ≤ a.length) {i : Nat} (h : i < point) :
    (a.crossAt b point).1.symbols[i]? = a.symbols[i]? := by
  rw [← List.getElem?_take_of_lt h, take_crossAt ha, List.getElem?_take_of_lt h]

theorem getElem?_crossAt_of_le (ha : point ≤ a.length) {i : Nat} (h : point ≤ i) :
    (a.crossAt b point).1.symbols[i]? = b.symbols[i]? := by
  obtain ⟨k, rfl⟩ := Nat.exists_eq_add_of_le h
  rw [← List.getElem?_drop, drop_crossAt ha, List.getElem?_drop]

/-- At every place, the children have the two symbols of the parents, in one order or the other. -/
theorem sym2_crossAt (ha : point ≤ a.length) (hb : point ≤ b.length) (i : Nat) :
    s((a.crossAt b point).1.symbols[i]?, (a.crossAt b point).2.symbols[i]?) =
      s(a.symbols[i]?, b.symbols[i]?) := by
  rw [snd_crossAt]
  rcases Nat.lt_or_ge i point with hlt | hge
  · rw [getElem?_crossAt_of_lt ha hlt, getElem?_crossAt_of_lt hb hlt]
  · rw [getElem?_crossAt_of_le ha hge, getElem?_crossAt_of_le hb hge]
    -- Behind the point, they have changed places.
    exact Sym2.eq_swap

/-- Crossed at the same point once more, the children give the parents back. -/
theorem crossAt_crossAt (ha : point ≤ a.length) (hb : point ≤ b.length) :
    (a.crossAt b point).1.crossAt (a.crossAt b point).2 point = (a, b) := by
  -- What holds of the first child holds of the second one with the parents exchanged.
  have hfirst : ∀ {a b : Program}, point ≤ a.length → point ≤ b.length →
      ((a.crossAt b point).1.crossAt (b.crossAt a point).1 point).1 = a := by
    intro a b ha hb
    show Program.mk (_ ++ _) = a
    rw [take_crossAt ha, drop_crossAt hb, List.take_append_drop]
  exact Prod.ext (hfirst ha hb) (hfirst hb ha)

end Program

/-! ## All symbols of a population -/

/-- The symbols of all programs together. -/
def symbolsOf (population : List Program) : Multiset Symbol :=
  (population.map fun p => (p.symbols : Multiset Symbol)).sum

@[simp] theorem symbolsOf_nil : symbolsOf [] = 0 :=
  rfl

@[simp] theorem symbolsOf_cons (p : Program) (population : List Program) :
    symbolsOf (p :: population) = p.symbols + symbolsOf population := by
  unfold symbolsOf
  rw [List.map_cons, List.sum_cons]

theorem symbolsOf_perm {population reordered : List Program} (h : reordered.Perm population) :
    symbolsOf reordered = symbolsOf population :=
  (h.map _).sum_eq

/-- No symbol is lost or won in a crossing, wherever the point is. -/
theorem symbolsOf_crossAt (a b : Program) (point : Nat) :
    symbolsOf [(a.crossAt b point).1, (a.crossAt b point).2] = symbolsOf [a, b] := by
  have hsplit : ∀ p : Program, (p.symbols : Multiset Symbol) =
      ↑(p.symbols.take point) + ↑(p.symbols.drop point) := by
    intro p
    rw [Multiset.coe_add, List.take_append_drop]
  have hchild : ∀ a b : Program, ((a.crossAt b point).1.symbols : Multiset Symbol) =
      ↑(a.symbols.take point) + ↑(b.symbols.drop point) := by
    intro a b
    exact (Multiset.coe_add _ _).symm
  -- Two heads and two tails, added up in another order.
  simp only [symbolsOf_cons, symbolsOf_nil, add_zero]
  rw [Program.snd_crossAt, hchild, hchild, hsplit a, hsplit b]
  ac_rfl

/-! ## Drawn points -/

variable {σ : Type} [RandomSource σ]

/-- Unless one of them is a single symbol, two programs are crossed at a point that lies in both. -/
theorem exists_point_crossover [LawfulSource σ] {a b : Program} (ha : a.length ≠ 1)
    (hb : b.length ≠ 1) (source : σ) :
    ∃ point ≤ min a.length b.length,
      point = ((RandomSource.below (min a.length b.length + 1) : StateM σ Nat).run source).1 ∧
        ((a.crossover b).run source).1 = a.crossAt b point := by
  have hpoint := LawfulSource.below_lt (min a.length b.length + 1) source (Nat.succ_pos _)
  exact ⟨_, Nat.le_of_lt_succ hpoint, rfl, run_crossover ha hb source⟩

/-- Programs of more than one symbol, or of none, have the symbols of their parents between them. -/
theorem surely_symbolsOf_crossover {a b : Program} (ha : a.length ≠ 1) (hb : b.length ≠ 1) :
    Surely (a.crossover b : StateM σ (Program × Program)) fun children =>
      symbolsOf [children.1, children.2] = symbolsOf [a, b] := by
  intro source
  rw [run_crossover ha hb]
  exact symbolsOf_crossAt a b _

/-- Pair by pair, the children of two populations of one size are twice as many and have all of the
symbols. -/
theorem surely_symbolsOf_crossPairs {as bs : List Program} (hlength : bs.length = as.length)
    (has : ∀ a ∈ as, a.length ≠ 1) (hbs : ∀ b ∈ bs, b.length ≠ 1) :
    Surely (crossPairs as bs : StateM σ (List Program)) fun children =>
      children.length = 2 * as.length ∧ symbolsOf children = symbolsOf as + symbolsOf bs := by
  induction as generalizing bs with
  | nil =>
    obtain rfl := List.length_eq_zero_iff.mp hlength
    exact surely_pure ⟨rfl, rfl⟩
  | cons a as ih =>
    cases bs with
    | nil => cases hlength
    | cons b bs =>
      rw [List.forall_mem_cons] at has hbs
      refine (surely_symbolsOf_crossover has.1 hbs.1).bind ?_
      rintro ⟨x, y⟩ hpair
      refine (ih (Nat.succ.inj hlength) has.2 hbs.2).bind ?_
      rintro children ⟨hchildren, hsymbols⟩
      simp only [symbolsOf_cons, symbolsOf_nil, add_zero] at hpair
      refine surely_pure ⟨?_, ?_⟩
      · rw [List.length_cons, List.length_cons, List.length_cons, hchildren]
        omega
      · simp only [symbolsOf_cons]
        rw [← add_assoc, hpair, hsymbols]
        ac_rfl

/-- In whatever order the programs are paired, their children have all of their symbols. -/
theorem surely_symbolsOf_recombine {survivors mutants : List Program}
    (hlength : mutants.length = survivors.length) (hsurvivors : ∀ p ∈ survivors, p.length ≠ 1)
    (hmutants : ∀ p ∈ mutants, p.length ≠ 1) :
    Surely (recombine survivors mutants : StateM σ (List Program)) fun children =>
      children.length = 2 * survivors.length ∧
        symbolsOf children = symbolsOf survivors + symbolsOf mutants := by
  refine (surely_shuffle survivors).bind ?_
  intro as has
  refine (surely_shuffle mutants).bind ?_
  intro bs hbs
  rw [← has.length_eq, ← symbolsOf_perm has, ← symbolsOf_perm hbs]
  apply surely_symbolsOf_crossPairs
  · rw [hbs.length_eq, has.length_eq, hlength]
  · intro a ha
    exact hsurvivors a (has.mem_iff.mp ha)
  · intro b hb
    exact hmutants b (hbs.mem_iff.mp hb)

/-- Two programs of other lengths than one exchange what follows a point, whatever is drawn: each
child is as long as the other parent, at every place the children have the symbols of the parents
between them, and crossing the children at the same point, as is done with the same draw, gives the
parents back. A single symbol is joined to the other program on either side. So the children of two
populations of one size, without single symbols, are twice as many and have the symbols of both
between them; and cutting a population back to a size takes that many of its programs, as far as it
has them, and each of them once. -/
theorem recombination_conserves_symbols [LawfulSource σ] :
    (∀ (a b : Program) (source : σ), a.length ≠ 1 → b.length ≠ 1 →
      let children := ((a.crossover b).run source).1
      children.1.length = b.length ∧ children.2.length = a.length ∧
        (∀ i : Nat, s(children.1.symbols[i]?, children.2.symbols[i]?) =
          s(a.symbols[i]?, b.symbols[i]?)) ∧
        (∃ point ≤ min a.length b.length, children = a.crossAt b point ∧
          children.1.crossAt children.2 point = (a, b)) ∧
        ((children.1.crossover children.2).run source).1 = (a, b)) ∧
    (∀ (a b : Program) (source : σ), a.length = 1 ∨ b.length = 1 →
      ((a.crossover b).run source).1 = (a ++ b, b ++ a)) ∧
    (∀ (survivors mutants : List Program) (source : σ), mutants.length = survivors.length →
      (∀ p ∈ survivors, p.length ≠ 1) → (∀ p ∈ mutants, p.length ≠ 1) →
      let children := ((recombine survivors mutants).run source).1
      children.length = 2 * survivors.length ∧
        symbolsOf children = symbolsOf survivors + symbolsOf mutants) ∧
    ∀ (population : List Program) (size : Nat) (source : σ),
      let kept := ((truncate population size).run source).1
      (kept : Multiset Program) ≤ population ∧ kept.length = min size population.length := by
  refine ⟨?_, ?_, ?_, ?_⟩
  · intro a b source ha hb children
    rcases exists_point_crossover ha hb source with
      ⟨point, hpoint, hdrawn, (hchildren : children = a.crossAt b point)⟩
    have hla : point ≤ a.length := Nat.le_trans hpoint (Nat.min_le_left _ _)
    have hlb : point ≤ b.length := Nat.le_trans hpoint (Nat.min_le_right _ _)
    have hfirst : children.1.length = b.length := by
      rw [hchildren]
      exact Program.length_crossAt hla hlb
    have hsecond : children.2.length = a.length := by
      rw [hchildren]
      exact Program.length_crossAt hlb hla
    have hback : children.1.crossAt children.2 point = (a, b) := by
      rw [hchildren]
      exact Program.crossAt_crossAt hla hlb
    refine ⟨hfirst, hsecond, ?_, ⟨point, hpoint, hchildren, hback⟩, ?_⟩
    · intro i
      rw [hchildren]
      exact Program.sym2_crossAt hla hlb i
    · -- The shorter of the children is as long as the shorter parent, so the same point is drawn.
      rw [run_crossover (by omega) (by omega), hfirst, hsecond, Nat.min_comm, ← hdrawn]
      exact hback
  · intro a b source hsingle
    exact run_crossover_of_single hsingle source
  · intro survivors mutants source hlength hsurvivors hmutants
    exact surely_symbolsOf_recombine hlength hsurvivors hmutants source
  · intro population size source
    rcases surely_truncate population size source with ⟨hlength, hkept⟩
    exact ⟨Multiset.coe_le.mpr hkept, hlength⟩

/-- Behind two symbols one program has three more and the other one a single one, and drawn again,
the same point puts both tails back. An empty program is crossed at its end, where the other program
begins. Of three programs, two of them alike, two are kept. -/
theorem recombination_conserves_symbols_tails :
    let a := Program.parse "+-[.]"
    let b := Program.parse "<>,"
    let children := ((a.crossover b).run (⟨[2]⟩ : Script)).1
    let bred := ((recombine [a, Program.parse ""] [b, Program.parse "[]"]).run
      (⟨[0, 1, 1, 0]⟩ : Script)).1
    let kept := ((truncate [a, b, b] 2).run (⟨[0, 1]⟩ : Script)).1
    children = (Program.parse "+-,", Program.parse "<>[.]") ∧ children.1.length = b.length ∧
      s(children.1.symbols[4]?, children.2.symbols[4]?) = s(a.symbols[4]?, b.symbols[4]?) ∧
      ((children.1.crossover children.2).run (⟨[2]⟩ : Script)).1 = (a, b) ∧
      (((Program.parse ".").crossover b).run (⟨[2]⟩ : Script)).1 =
        (Program.parse ".<>,", Program.parse "<>,.") ∧
      bred.length = 4 ∧
      symbolsOf bred = symbolsOf [a, Program.parse ""] + symbolsOf [b, Program.parse "[]"] ∧
      (kept : Multiset Program) ≤ ↑[a, b, b] ∧ kept.length = 2 := by
  intro a b children bred kept
  rcases @recombination_conserves_symbols Script _ _ with ⟨hcross, hsingle, hrecombine, htruncate⟩
  rcases hcross a b ⟨[2]⟩ (by decide) (by decide) with ⟨hfirst, -, hplaces, -, hback⟩
  rcases hrecombine [a, Program.parse ""] [b, Program.parse "[]"] ⟨[0, 1, 1, 0]⟩ rfl (by decide)
    (by decide) with ⟨hbred, hsymbols⟩
  rcases htruncate [a, b, b] 2 ⟨[0, 1]⟩ with ⟨hsome, hkept⟩
  exact ⟨by decide +kernel, hfirst, hplaces 4, hback, hsingle _ b ⟨[2]⟩ (.inl rfl), hbred, hsymbols,
    hsome, hkept⟩

end TapeBreeder
