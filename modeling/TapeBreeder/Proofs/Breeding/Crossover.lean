import TapeBreeder.Proofs.Brackets.Unpaired
import TapeBreeder.Proofs.Breeding.Brackets
import TapeBreeder.Proofs.Random.Script

/-!
# What crossover does to brackets

Two balanced programs need not have as many loops open at the point behind which they exchange their
tails. Each tail closes the loops that its own head has opened, so behind the other head it closes
too many of them or too few.

* `Program.openLoops` — how many loops are open after the first symbols of a program.
* `Balanced.exists_leftover` — what either side of a point leaves over.
* `leftover_crossAt` — what the children of balanced programs leave over: the difference of the open
  loops, as `[`s in the one and as `]`s in the other.
* `balanced_crossAt`, `crossAt_of_openLoops_lt` — so what becomes of the children.
* `crossover_breaks_at_most_one` — which children can be loaded, and what is left open in them.
-/

namespace TapeBreeder

/-! ## Open loops -/

/-- The number of loops that are open after the first `point` symbols. -/
def Program.openLoops (p : Program) (point : Nat) : Int :=
  (p.symbols.take point).count .loopOpen - (p.symbols.take point).count .loopClose

/-- Pairing off brackets takes as many of the one kind as of the other. -/
theorem closes_add_count (xs : List Symbol) :
    (leftover xs).closes + xs.count .loopOpen = (leftover xs).opens + xs.count .loopClose := by
  induction xs with
  | nil => rfl
  | cons s xs ih =>
    rcases Program.symbol_cases s with rfl | rfl | hs
    · -- A `[` in front is left over, or it takes a `]` from those that are.
      rw [leftover_cons, List.count_cons_self, List.count_cons_of_ne (by decide)]
      simp only [Leftover.closes_append, Leftover.opens_append, Symbol.leftover]
      omega
    · rw [leftover_cons, List.count_cons_self, List.count_cons_of_ne (by decide)]
      simp only [Leftover.closes_append, Leftover.opens_append, Symbol.leftover]
      omega
    · have hopen : s ≠ .loopOpen := by
        rintro rfl
        cases hs
      have hclose : s ≠ .loopClose := by
        rintro rfl
        cases hs
      rw [leftover_cons_plain hs, List.count_cons_of_ne hopen, List.count_cons_of_ne hclose]
      exact ih

/-- In a balanced row the loops that are open at some place are closed behind it. -/
theorem Balanced.exists_leftover {xs ys : List Symbol} (h : Balanced (xs ++ ys)) :
    ∃ k, leftover xs = ⟨0, k⟩ ∧ leftover ys = ⟨k, 0⟩ := by
  have hall := h.leftover_eq
  rw [leftover_append] at hall
  have hcloses : (leftover xs).closes + ((leftover ys).closes - (leftover xs).opens) = 0 :=
    congrArg Leftover.closes hall
  have hopens : (leftover xs).opens - (leftover ys).closes + (leftover ys).opens = 0 :=
    congrArg Leftover.opens hall
  have hxs : (leftover xs).closes = 0 := by omega
  have hys : (leftover ys).opens = 0 := by omega
  have hpaired : (leftover ys).closes = (leftover xs).opens := by omega
  exact ⟨(leftover xs).opens, Leftover.ext hxs rfl, Leftover.ext hpaired hys⟩

/-- A balanced program parts at any point into symbols that leave its open loops over and symbols
that close them. -/
theorem Program.exists_openLoops {p : Program} (h : Balanced p.symbols) (point : Nat) :
    ∃ k : Nat, p.openLoops point = k ∧ leftover (p.symbols.take point) = ⟨0, k⟩ ∧
      leftover (p.symbols.drop point) = ⟨k, 0⟩ := by
  rw [← List.take_append_drop point p.symbols] at h
  rcases h.exists_leftover with ⟨k, hhead, htail⟩
  have hcount := closes_add_count (p.symbols.take point)
  rw [hhead] at hcount
  refine ⟨k, ?_, hhead, htail⟩
  unfold openLoops
  simp only at hcount
  omega

/-! ## Children -/

/-- The head with more open loops leaves some of them open before the other tail, and the other head
has too few of them for its new tail. -/
theorem leftover_crossAt {a b : Program} (ha : Balanced a.symbols) (hb : Balanced b.symbols)
    (point : Nat) :
    ∃ m n : Nat, a.openLoops point = m ∧ b.openLoops point = n ∧
      leftover (a.crossAt b point).1.symbols = ⟨n - m, m - n⟩ ∧
      leftover (a.crossAt b point).2.symbols = ⟨m - n, n - m⟩ := by
  rcases Program.exists_openLoops ha point with ⟨m, hm, hahead, hatail⟩
  rcases Program.exists_openLoops hb point with ⟨n, hn, hbhead, hbtail⟩
  refine ⟨m, n, hm, hn, ?_, ?_⟩
  · show leftover (a.symbols.take point ++ b.symbols.drop point) = _
    rw [leftover_append, hahead, hbtail]
    ext <;> simp
  · show leftover (b.symbols.take point ++ a.symbols.drop point) = _
    rw [leftover_append, hbhead, hatail]
    ext <;> simp

/-- With as many loops open in the one parent as in the other, the tails can be exchanged. -/
theorem balanced_crossAt {a b : Program} (ha : Balanced a.symbols) (hb : Balanced b.symbols)
    {point : Nat} (h : a.openLoops point = b.openLoops point) :
    Balanced (a.crossAt b point).1.symbols := by
  rcases leftover_crossAt ha hb point with ⟨m, n, hm, hn, hfirst, -⟩
  obtain rfl : m = n := by omega
  rw [balanced_iff_leftover_eq, hfirst, Nat.sub_self]

/-- The child with the head that has more open loops can be loaded and leaves just so many more of
them open; the other child has that many `]`s over, and cannot be loaded. -/
theorem crossAt_of_openLoops_lt {a b : Program} (ha : Balanced a.symbols) (hb : Balanced b.symbols)
    {point : Nat} (h : b.openLoops point < a.openLoops point) :
    (a.crossAt b point).1.isLoadable ∧
      (a.crossAt b point).1.unpaired .loopOpen =
        (a.openLoops point - b.openLoops point).natAbs ∧
      ¬ (a.crossAt b point).2.isLoadable := by
  rcases leftover_crossAt ha hb point with ⟨m, n, hm, hn, hfirst, hsecond⟩
  rw [Program.isLoadable_iff_closes, Program.isLoadable_iff_closes, Program.unpaired_open, hfirst,
    hsecond]
  -- With `m` loops open in the first parent and `n` in the second, `n` is less than `m`.
  refine ⟨?_, ?_, ?_⟩
  · show n - m = 0
    omega
  · show m - n = _
    omega
  · show m - n ≠ 0
    omega

/-! ## Drawn points -/

variable {σ : Type} [RandomSource σ] {a b : Program}

/-- Programs of more than one symbol, or of none, are crossed at the point that is drawn. -/
theorem run_crossover (ha : a.length ≠ 1) (hb : b.length ≠ 1) (source : σ) :
    ((a.crossover b).run source).1 = a.crossAt b
      ((RandomSource.below (min a.length b.length + 1) : StateM σ Nat).run source).1 := by
  have hsingle : ¬ (a.length = 1 ∨ b.length = 1) := not_or.mpr ⟨ha, hb⟩
  unfold Program.crossover
  rw [if_neg hsingle]
  rfl

/-- A single symbol is not cut, and no point is drawn. -/
theorem run_crossover_of_single (h : a.length = 1 ∨ b.length = 1) (source : σ) :
    ((a.crossover b).run source).1 = (a ++ b, b ++ a) := by
  unfold Program.crossover
  rw [if_pos h]
  rfl

/-- Two programs are crossed at a point that is drawn from any source. If both can be loaded, so can
at least one of their children. If both are balanced and neither is a single symbol, all depends on
how many more loops are open in the one than in the other at this point: if none, both children are
balanced; else the child with the head of the one that has more of them can be loaded and has just
so many `[`s without partner, and the other child cannot be loaded. With a single symbol for a
parent, the children of balanced parents are balanced. -/
theorem crossover_breaks_at_most_one (a b : Program) (source : σ) :
    let point := ((RandomSource.below (min a.length b.length + 1) : StateM σ Nat).run source).1
    let difference := a.openLoops point - b.openLoops point
    let children := ((a.crossover b).run source).1
    (a.isLoadable → b.isLoadable → children.1.isLoadable ∨ children.2.isLoadable) ∧
    (a.isBalanced = true → b.isBalanced = true → a.length ≠ 1 → b.length ≠ 1 →
      (difference = 0 → children.1.isBalanced = true ∧ children.2.isBalanced = true) ∧
      (0 < difference → children.1.isLoadable ∧
        children.1.unpaired .loopOpen = difference.natAbs ∧ ¬ children.2.isLoadable) ∧
      (difference < 0 → children.2.isLoadable ∧
        children.2.unpaired .loopOpen = difference.natAbs ∧ ¬ children.1.isLoadable)) ∧
    (a.isBalanced = true → b.isBalanced = true → a.length = 1 ∨ b.length = 1 →
      children.1.isBalanced = true ∧ children.2.isBalanced = true) := by
  intro point difference children
  refine ⟨?_, ?_, ?_⟩
  · intro ha hb
    exact surely_crossover ha hb source
  · intro ha hb hla hlb
    have hchildren : children = a.crossAt b point := run_crossover hla hlb source
    rw [Program.isBalanced_iff] at ha hb
    rw [hchildren, Program.isBalanced_iff, Program.isBalanced_iff]
    refine ⟨?_, ?_, ?_⟩
    · intro hzero
      exact ⟨balanced_crossAt ha hb (by omega), balanced_crossAt hb ha (by omega)⟩
    · intro hmore
      exact crossAt_of_openLoops_lt ha hb (by omega)
    · -- The other way round, the children change places.
      intro hless
      rw [show difference.natAbs = (b.openLoops point - a.openLoops point).natAbs by omega]
      exact crossAt_of_openLoops_lt hb ha (by omega)
  · intro ha hb hsingle
    -- Without a cut, the children are the parents put in a row.
    have hchildren : children = (a ++ b, b ++ a) := run_crossover_of_single hsingle source
    rw [Program.isBalanced_iff] at ha hb
    rw [hchildren, Program.isBalanced_iff, Program.isBalanced_iff]
    exact ⟨ha.append hb, hb.append ha⟩

/-- Behind three symbols two loops are open in the one program and none in the other: both stay open
in the one child, and the other closes them without having opened any. Behind four symbols one loop
is open in each. A single symbol is joined to the other program on both sides. -/
theorem crossover_breaks_at_most_one_points :
    (((Program.parse "[[+].]-").crossover (Program.parse "[-][.]")).run (⟨[3]⟩ : Script)).1 =
        (Program.parse "[[+[.]", Program.parse "[-]].]-") ∧
      (Program.parse "[[+[.]").unpaired .loopOpen = 2 ∧
      ¬ (Program.parse "[-]].]-").isLoadable ∧
      (((Program.parse "[[+].]-").crossover (Program.parse "[-][.]")).run (⟨[4]⟩ : Script)).1 =
        (Program.parse "[[+].]", Program.parse "[-][.]-") ∧
      (Program.parse "[[+].]").isBalanced = true ∧ (Program.parse "[-][.]-").isBalanced = true ∧
      (((Program.parse ".").crossover (Program.parse "[-]")).run (⟨[]⟩ : Script)).1 =
        (Program.parse ".[-]", Program.parse "[-].") ∧
      (Program.parse ".[-]").isBalanced = true ∧ (Program.parse "[-].").isBalanced = true := by
  have hleft : (Program.parse "[[+].]-").isBalanced = true := by decide
  have hright : (Program.parse "[-][.]").isBalanced = true := by decide
  have hapart := (crossover_breaks_at_most_one (Program.parse "[[+].]-") (Program.parse "[-][.]")
    (⟨[3]⟩ : Script)).2.1 hleft hright (by decide) (by decide)
  have halike := (crossover_breaks_at_most_one (Program.parse "[[+].]-") (Program.parse "[-][.]")
    (⟨[4]⟩ : Script)).2.1 hleft hright (by decide) (by decide)
  have hjoined := (crossover_breaks_at_most_one (Program.parse ".") (Program.parse "[-]")
    (⟨[]⟩ : Script)).2.2 (by decide) (by decide) (.inl rfl)
  rcases hapart.2.1 (by decide) with ⟨-, hunpaired, hbroken⟩
  rcases halike.1 (by decide) with ⟨hfirst, hsecond⟩
  exact ⟨rfl, hunpaired, hbroken, rfl, hfirst, hsecond, rfl, hjoined.1, hjoined.2⟩

end TapeBreeder
