import Mathlib.Data.List.Induction
import TapeBreeder.Proofs.Brackets.Jumps

/-!
# Brackets without partner

The leftover of a program is found by pairing off brackets, and the partner of a bracket by scanning
from it. Both see the same: as many brackets of either kind are left over as there are positions
from which the scan finds nothing.

* `Program.unpaired` — the number of brackets of one kind for which no scan finds a partner.
* `partner?_open_eq_none_iff`, `partner?_close_eq_none_iff` — a `[` is one of them if no `]` is left
  over behind it, and a `]` if no `[` is left over before it.
* `unpaired_eq_countP` — these brackets counted one by one, by what stands on either side.
* `unpaired_open`, `unpaired_close` — the two numbers are the leftover.
-/

namespace TapeBreeder

/-- The number of brackets of one kind that have no partner. -/
def Program.unpaired (p : Program) (bracket : Symbol) : Nat :=
  (List.range p.length).countP fun i => p.symbols[i]? = some bracket ∧ p.partner? i = none

/-! ## One bracket -/

/-- Behind a `[` with a partner a `]` is left over, its partner. -/
theorem IsPair.closes_ne_zero {xs zs : List Symbol} {j : Nat}
    (h : IsPair (xs ++ .loopOpen :: zs) xs.length j) : (leftover zs).closes ≠ 0 := by
  rcases h with ⟨as, bs, cs, hsplit, hbs, hlength, -⟩
  -- The `[` of the pair is the one in question, so the rows behind the two agree.
  obtain ⟨-, hzs⟩ := List.append_inj hsplit hlength
  obtain rfl : zs = bs ++ .loopClose :: cs := List.tail_eq_of_cons_eq hzs
  rw [leftover_append, hbs.leftover_eq, leftover_cons]
  simp [Symbol.leftover]

/-- Before a `]` with a partner a `[` is left over, its partner. -/
theorem IsPair.opens_ne_zero {xs zs : List Symbol} {j : Nat}
    (h : IsPair (xs ++ .loopClose :: zs) j xs.length) : (leftover xs).opens ≠ 0 := by
  rcases h with ⟨as, bs, cs, hsplit, hbs, -, hlength⟩
  have hlengths : xs.length = (as ++ .loopOpen :: bs).length := by
    rw [hlength, List.length_append, List.length_cons, Nat.add_assoc]
  have hsplit' : xs ++ .loopClose :: zs = (as ++ .loopOpen :: bs) ++ .loopClose :: cs := by
    rw [hsplit, List.append_assoc, List.cons_append]
  obtain ⟨rfl, -⟩ := List.append_inj hsplit' hlengths
  rw [leftover_append, leftover_cons, hbs.leftover_eq]
  simp [Symbol.leftover]

/-- A `[` has no partner exactly if no `]` is left over behind it. -/
theorem partner?_open_eq_none_iff {xs zs : List Symbol} :
    (Program.mk (xs ++ .loopOpen :: zs)).partner? xs.length = none ↔
      (leftover zs).closes = 0 := by
  constructor
  · exact closes_eq_zero_of_partner?_eq_none
  · intro hcloses
    cases hpartner : (Program.mk (xs ++ .loopOpen :: zs)).partner? xs.length with
    | none => rfl
    | some j =>
      rcases isPair_of_partner? hpartner with hpair | hpair
      · exact absurd hcloses hpair.closes_ne_zero
      · -- The second bracket of a pair is a `]`.
        have hclose := hpair.getElem?_second
        simp at hclose

/-- A `]` has no partner exactly if no `[` is left over before it. -/
theorem partner?_close_eq_none_iff {xs zs : List Symbol} :
    (Program.mk (xs ++ .loopClose :: zs)).partner? xs.length = none ↔
      (leftover xs).opens = 0 := by
  constructor
  · exact opens_eq_zero_of_partner?_eq_none
  · intro hopens
    cases hpartner : (Program.mk (xs ++ .loopClose :: zs)).partner? xs.length with
    | none => rfl
    | some j =>
      rcases isPair_of_partner? hpartner with hpair | hpair
      · -- The first bracket of a pair is a `[`.
        have hopen := hpair.getElem?_first
        simp at hopen
      · exact absurd hopens hpair.opens_ne_zero

/-! ## All brackets -/

/-- The `[`s that are left over are those behind which no `]` is. -/
theorem opens_eq_countP (xs : List Symbol) :
    (leftover xs).opens = (List.range xs.length).countP fun i =>
      xs[i]? = some .loopOpen ∧ (leftover (xs.drop (i + 1))).closes = 0 := by
  induction xs with
  | nil => rfl
  | cons s xs ih =>
    -- What stands behind a bracket does not change with a symbol put in front.
    have hbehind : (List.range xs.length).countP ((fun i =>
        (s :: xs)[i]? = some .loopOpen ∧ (leftover ((s :: xs).drop (i + 1))).closes = 0) ∘
          Nat.succ) = (leftover xs).opens := by
      rw [ih]
      apply List.countP_congr
      intro i _
      simp
    rw [List.length_cons, List.range_succ_eq_map, List.countP_cons, List.countP_map, hbehind,
      leftover_cons, Leftover.opens_append]
    -- Only a new `[` can change the number: it counts if no `]` is left over behind it, and else it
    -- takes the first of these.
    rcases Program.symbol_cases s with rfl | rfl | hs
    · by_cases hcloses : (leftover xs).closes = 0
      · simp [Symbol.leftover, hcloses, Nat.add_comm]
      · have hpos : 1 ≤ (leftover xs).closes := Nat.one_le_iff_ne_zero.mpr hcloses
        simp [Symbol.leftover, hcloses, hpos]
    · simp [Symbol.leftover]
    · have hne : s ≠ .loopOpen := by
        rintro rfl
        cases hs
      simp [Symbol.leftover_plain hs, hne]

/-- The `]`s that are left over are those before which no `[` is. The induction is from the end of
the row, where a new symbol changes nothing for the brackets before it. -/
theorem closes_eq_countP (xs : List Symbol) :
    (leftover xs).closes = (List.range xs.length).countP fun i =>
      xs[i]? = some .loopClose ∧ (leftover (xs.take i)).opens = 0 := by
  induction xs using List.reverseRecOn with
  | nil => rfl
  | append_singleton xs s ih =>
    -- What stands before a bracket does not change with a symbol put behind.
    have hbefore : (List.range xs.length).countP (fun i =>
        (xs ++ [s])[i]? = some .loopClose ∧ (leftover ((xs ++ [s]).take i)).opens = 0) =
        (leftover xs).closes := by
      rw [ih]
      apply List.countP_congr
      intro i hi
      have hlt : i < xs.length := List.mem_range.mp hi
      rw [List.getElem?_append_left hlt, List.take_append_of_le_length (Nat.le_of_lt hlt)]
    rw [List.length_append, List.length_singleton, List.range_succ, List.countP_append, hbefore,
      leftover_append, Leftover.closes_append]
    -- Only a new `]` can change the number: it counts if no `[` is left over before it, and else it
    -- takes the last of these.
    rcases Program.symbol_cases s with rfl | rfl | hs
    · simp [Symbol.leftover]
    · by_cases hopens : (leftover xs).opens = 0
      · simp [Symbol.leftover, hopens]
      · have hpos : 1 ≤ (leftover xs).opens := Nat.one_le_iff_ne_zero.mpr hopens
        simp [Symbol.leftover, hopens, hpos]
    · have hne : s ≠ .loopClose := by
        rintro rfl
        cases hs
      simp [Symbol.leftover_plain hs, hne]

namespace Program

/-- The brackets of one kind that have no partner are counted one by one, each by what stands before
it and behind it. -/
theorem unpaired_eq_countP (Alone : List Symbol → List Symbol → Prop) [DecidableRel Alone]
    {bracket : Symbol}
    (halone : ∀ before behind, (Program.mk (before ++ bracket :: behind)).partner? before.length =
      none ↔ Alone before behind) (p : Program) :
    p.unpaired bracket = (List.range p.symbols.length).countP fun i =>
      p.symbols[i]? = some bracket ∧ Alone (p.symbols.take i) (p.symbols.drop (i + 1)) := by
  rw [unpaired, length]
  apply List.countP_congr
  intro i _
  simp only [decide_eq_true_eq]
  apply and_congr_right
  intro hbracket
  rcases p with ⟨symbols⟩
  -- The two conditions are compared at one bracket, where the program is split.
  rcases eq_append_of_getElem? hbracket with ⟨before, behind, rfl, rfl⟩
  rw [halone]
  simp

/-- As many `[`s have no partner as are left over. -/
theorem unpaired_open (p : Program) : p.unpaired .loopOpen = (leftover p.symbols).opens := by
  rw [opens_eq_countP]
  exact unpaired_eq_countP (fun _ behind => (leftover behind).closes = 0)
    (fun _ _ => partner?_open_eq_none_iff) p

/-- As many `]`s have no partner as are left over. -/
theorem unpaired_close (p : Program) : p.unpaired .loopClose = (leftover p.symbols).closes := by
  rw [closes_eq_countP]
  exact unpaired_eq_countP (fun before _ => (leftover before).opens = 0)
    (fun _ _ => partner?_close_eq_none_iff) p

end Program

end TapeBreeder
