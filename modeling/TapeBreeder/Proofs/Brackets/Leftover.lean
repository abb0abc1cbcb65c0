import TapeBreeder.Proofs.Brackets.Partner

/-!
# Leftovers

Pairing off all brackets that can be paired in a row of symbols leaves some `]`s, and behind them
some `[`s. How many of each is all that matters to what may stand before or behind the row.

* `leftover`, `leftover_append` — the leftover of a concatenation is that of the leftovers: the
  `[`s of the first row pair off with the `]`s of the second.
* `depthAfter?_eq` — what a counter sees of a row is its leftover.
* `isLoadable_iff_closes` — a program can be loaded when no `]` is left over, and it is balanced
  when nothing is (`balanced_iff_leftover_eq`).
* `leftover_mirror` — in a mirror, the two kinds change places.
* `closes_eq_zero_of_partner?_eq_none`, `opens_eq_zero_of_partner?_eq_none` — what a bracket
  without partner says about the symbols behind it, or before it.
-/

namespace TapeBreeder

open Program (depthAfter? returnOffset?)

/-- So many `]`s, and behind them so many `[`s. -/
@[ext] structure Leftover where
  closes : Nat
  opens : Nat
deriving DecidableEq, Repr

namespace Leftover

/-- One leftover behind another: `[`s of the first pair off with `]`s of the second. -/
instance : Append Leftover :=
  ⟨fun a b => ⟨a.closes + (b.closes - a.opens), a.opens - b.closes + b.opens⟩⟩

/-- Fewer brackets of either kind. -/
instance : LE Leftover :=
  ⟨fun a b => a.closes ≤ b.closes ∧ a.opens ≤ b.opens⟩

@[simp] theorem closes_append (a b : Leftover) :
    (a ++ b).closes = a.closes + (b.closes - a.opens) :=
  rfl

@[simp] theorem opens_append (a b : Leftover) :
    (a ++ b).opens = a.opens - b.closes + b.opens :=
  rfl

theorem le_refl (a : Leftover) : a ≤ a :=
  ⟨Nat.le_refl _, Nat.le_refl _⟩

theorem zero_le (a : Leftover) : (⟨0, 0⟩ : Leftover) ≤ a :=
  ⟨Nat.zero_le _, Nat.zero_le _⟩

/-- It does not matter in which order three rows are put together: a `[` pairs off with the same
`]`. -/
theorem append_assoc (a b c : Leftover) : a ++ b ++ c = a ++ (b ++ c) := by
  ext <;> simp only [closes_append, opens_append] <;> omega

@[simp] theorem zero_append (a : Leftover) : (⟨0, 0⟩ : Leftover) ++ a = a := by
  ext <;> simp

@[simp] theorem append_zero (a : Leftover) : a ++ (⟨0, 0⟩ : Leftover) = a := by
  ext <;> simp

end Leftover

/-! ## The leftover of a row -/

/-- The leftover of one symbol. -/
def Symbol.leftover : Symbol → Leftover
  | .loopOpen => ⟨0, 1⟩
  | .loopClose => ⟨1, 0⟩
  | _ => ⟨0, 0⟩

theorem Symbol.leftover_plain {s : Symbol} (hs : s.isBracket = false) : s.leftover = ⟨0, 0⟩ := by
  cases s with
  | loopOpen => cases hs
  | loopClose => cases hs
  | _ => rfl

/-- What is left over of a row of symbols. -/
def leftover (xs : List Symbol) : Leftover :=
  xs.foldr (fun s rest => s.leftover ++ rest) ⟨0, 0⟩

@[simp] theorem leftover_nil : leftover [] = ⟨0, 0⟩ :=
  rfl

@[simp] theorem leftover_cons (s : Symbol) (xs : List Symbol) :
    leftover (s :: xs) = s.leftover ++ leftover xs :=
  rfl

theorem leftover_append (xs ys : List Symbol) :
    leftover (xs ++ ys) = leftover xs ++ leftover ys := by
  induction xs with
  | nil => simp
  | cons s xs ih => rw [List.cons_append, leftover_cons, leftover_cons, ih, Leftover.append_assoc]

theorem leftover_cons_plain {s : Symbol} (hs : s.isBracket = false) (xs : List Symbol) :
    leftover (s :: xs) = leftover xs := by
  rw [leftover_cons, Symbol.leftover_plain hs, Leftover.zero_append]

/-- Nothing is left over of a balanced row. -/
theorem Balanced.leftover_eq {xs : List Symbol} (h : Balanced xs) : leftover xs = ⟨0, 0⟩ := by
  induction h with
  | nil => rfl
  | plain hs _ ih => rw [leftover_cons_plain hs, ih]
  | loop _ _ ihbody ihrest =>
    rw [leftover_cons, leftover_append, leftover_cons, ihbody, ihrest]
    rfl

/-- A balanced row in the midst of others leaves no trace. -/
theorem leftover_append_balanced_append {code : List Symbol} (h : Balanced code)
    (xs ys : List Symbol) : leftover (xs ++ code ++ ys) = leftover (xs ++ ys) := by
  rw [leftover_append, leftover_append, leftover_append, h.leftover_eq, Leftover.append_zero]

/-! ## Counters -/

/-- From any depth, a counter falls by the `]`s that are left over and rises by the `[`s. If it is
not high enough for the `]`s, it gets stuck. -/
theorem depthAfter?_eq (d : Nat) (xs : List Symbol) :
    depthAfter? d xs =
      if (leftover xs).closes ≤ d then some (d - (leftover xs).closes + (leftover xs).opens)
      else none := by
  induction xs generalizing d with
  | nil => rfl
  | cons s xs ih =>
    rcases Program.symbol_cases s with rfl | rfl | hs
    · -- The `[` pairs off with the first `]` that is left over, if there is one.
      rw [Program.depthAfter?_open, ih, leftover_cons]
      simp only [Symbol.leftover, Leftover.closes_append, Leftover.opens_append]
      grind
    · cases d with
      -- At depth zero the first `]` is left over, and the counter is stuck there.
      | zero =>
        rw [Program.depthAfter?_close_zero, leftover_cons, if_neg]
        simp only [Symbol.leftover, Leftover.closes_append]
        omega
      | succ d =>
        -- The `]` is left over and lowers the depth at once.
        rw [Program.depthAfter?_close_succ, ih, leftover_cons]
        simp only [Symbol.leftover, Leftover.closes_append, Leftover.opens_append]
        grind
    · rw [Program.depthAfter?_plain hs, ih, leftover_cons_plain hs]

/-- A counter does not get stuck if it starts at least as high as there are `]`s left over. -/
theorem isSome_depthAfter?_iff {d : Nat} {xs : List Symbol} :
    (depthAfter? d xs).isSome ↔ (leftover xs).closes ≤ d := by
  rw [depthAfter?_eq]
  split <;> simp_all

/-- A row is balanced if nothing is left over of it. -/
theorem balanced_iff_leftover_eq {xs : List Symbol} : Balanced xs ↔ leftover xs = ⟨0, 0⟩ := by
  constructor
  · intro h
    exact h.leftover_eq
  · intro h
    apply balanced_of_depthAfter?
    rw [depthAfter?_eq, h]
    rfl

/-- A program can be loaded if no `]` is left over; `[`s do not matter. -/
theorem Program.isLoadable_iff_closes {p : Program} :
    p.isLoadable ↔ (leftover p.symbols).closes = 0 := by
  rw [isLoadable_iff, isSome_depthAfter?_iff, Nat.le_zero]

/-- If some `[` is left over, there is one behind which no `]` is. -/
theorem exists_open_of_opens {xs : List Symbol} (h : (leftover xs).opens ≠ 0) :
    ∃ ys zs, xs = ys ++ .loopOpen :: zs ∧ (leftover zs).closes = 0 := by
  induction xs with
  | nil => exact absurd rfl h
  | cons s xs ih =>
    by_cases hrest : (leftover xs).opens = 0
    · -- It is the first symbol that is left over.
      rcases Program.symbol_cases s with rfl | rfl | hs
      · rw [leftover_cons] at h
        simp only [Leftover.opens_append, Symbol.leftover] at h
        exact ⟨[], xs, rfl, by omega⟩
      · rw [leftover_cons] at h
        simp only [Leftover.opens_append, Symbol.leftover] at h
        omega
      · rw [leftover_cons_plain hs] at h
        exact absurd hrest h
    · -- A `[` of the rest is left over, and `ih` finds it.
      rcases ih hrest with ⟨ys, zs, rfl, hzs⟩
      exact ⟨s :: ys, zs, rfl, hzs⟩

/-! ## Mirror images -/

/-- In a mirror, what has been left over as a `]` is left over as a `[`, and the other way round. -/
theorem leftover_mirror (xs : List Symbol) :
    leftover (xs.map Symbol.flip).reverse = ⟨(leftover xs).opens, (leftover xs).closes⟩ := by
  induction xs with
  | nil => rfl
  | cons s xs ih =>
    rw [List.map_cons, List.reverse_cons, leftover_append, ih, leftover_cons, leftover_cons,
      leftover_nil]
    rcases Program.symbol_cases s with rfl | rfl | hs
    · ext
      · simp [Symbol.flip, Symbol.leftover]
        omega
      · simp [Symbol.flip, Symbol.leftover]
    · ext
      · simp [Symbol.flip, Symbol.leftover]
      · simp [Symbol.flip, Symbol.leftover]
        omega
    · have hflip : s.flip.isBracket = false := s.isBracket_flip.trans hs
      rw [Symbol.leftover_plain hs, Symbol.leftover_plain hflip]
      simp

/-! ## Brackets without partners -/

/-- Behind a `[` that is never closed no `]` is left over. -/
theorem closes_eq_zero_of_partner?_eq_none {xs zs : List Symbol}
    (h : (Program.mk (xs ++ .loopOpen :: zs)).partner? xs.length = none) :
    (leftover zs).closes = 0 := by
  unfold Program.partner? at h
  rw [List.getElem?_append_right (Nat.le_refl _), Nat.sub_self, List.getElem?_cons_zero,
    List.drop_left] at h
  -- The scan begins at the `[` and goes on behind it with one loop open.
  have hscan := Option.map_eq_none_iff.mp h
  rw [returnOffset?_open, Option.map_eq_none_iff] at hscan
  -- As it never comes back to zero, a counter that starts at zero never gets stuck.
  have hzs := depthAfter?_isSome_of_returnOffset?_eq_none (k := 0) hscan
  rw [isSome_depthAfter?_iff] at hzs
  exact Nat.le_zero.mp hzs

/-- Before a `]` that closes nothing no `[` is left over: the same, in a mirror. -/
theorem opens_eq_zero_of_partner?_eq_none {xs zs : List Symbol}
    (h : (Program.mk (xs ++ .loopClose :: zs)).partner? xs.length = none) :
    (leftover xs).opens = 0 := by
  unfold Program.partner? at h
  rw [List.getElem?_append_right (Nat.le_refl _), Nat.sub_self, List.getElem?_cons_zero,
    List.take_length_add_append, List.take_one, List.head?_cons] at h
  have hscan := Option.map_eq_none_iff.mp h
  -- Read backwards and flipped, this is a scan from a `[`.
  rw [List.reverse_append, returnOffset?_flip] at hscan
  simp only [Option.toList_some, List.reverse_singleton, List.singleton_append,
    List.map_cons, List.map_reverse, Symbol.flip] at hscan
  rw [returnOffset?_open, Option.map_eq_none_iff] at hscan
  have hxs := depthAfter?_isSome_of_returnOffset?_eq_none (k := 0) hscan
  rw [isSome_depthAfter?_iff, leftover_mirror] at hxs
  exact Nat.le_zero.mp hxs

/-- In a balanced program every `[` has a partner. -/
theorem Program.partner?_ne_none_of_balanced {p : Program} (hbalanced : Balanced p.symbols)
    {k : Nat} (hopen : p.symbols[k]? = some .loopOpen) : p.partner? k ≠ none := by
  intro hnone
  rcases p with ⟨symbols⟩
  rcases eq_append_of_getElem? hopen with ⟨xs, zs, rfl, rfl⟩
  have hcloses := closes_eq_zero_of_partner?_eq_none hnone
  -- Nothing is left over of the whole, but the `[` would be.
  have hopens := congrArg Leftover.opens hbalanced.leftover_eq
  rw [leftover_append, leftover_cons] at hopens
  simp only [Leftover.opens_append, Leftover.closes_append, Symbol.leftover] at hopens
  omega

end TapeBreeder
