import TapeBreeder.Proofs.Brackets.Agreement
import TapeBreeder.Proofs.Safety.Guarded

/-!
# Pairs of brackets are nested

The scans from two brackets run in opposite directions and stop by different brackets, but they see
the same pairs, in programs that are not balanced too. The row between the brackets of a pair is
balanced, so that each bracket in it has its partner in it, and no pair crosses another one.

* `isPair_iff` — a `[` and behind it a `]`, with a balanced row between them.
* `IsPair.exists_inside` — the partner of a bracket between two partners is between them too.
* `IsPair.nested` — two pairs are disjoint, or one of them is inside the other.
* `Guarded.returnOffset?`, `Guarded.partner?` — the scans with a counter that must not fall below
  zero, and does not.
* `partners_nested` — all of it, for the partners that are found by scanning.
-/

namespace TapeBreeder

/-! ## What is between partners -/

/-- The program strictly between two positions. -/
def Program.between (p : Program) (first second : Nat) : Program :=
  ⟨(p.symbols.take second).drop (first + 1)⟩

section

variable {symbols : List Symbol} {i j k l : Nat}

/-- Pairs are the brackets that face each other across a balanced row. -/
theorem isPair_iff : IsPair symbols i j ↔ i < j ∧ symbols[i]? = some .loopOpen ∧
    symbols[j]? = some .loopClose ∧ Balanced ((symbols.take j).drop (i + 1)) := by
  constructor
  · intro h
    refine ⟨h.lt, h.getElem?_first, h.getElem?_second, ?_⟩
    rcases h with ⟨xs, ys, zs, rfl, hys, rfl, rfl⟩
    -- What is cut out between the two positions is the row of the pair.
    have hsplit : xs ++ .loopOpen :: (ys ++ .loopClose :: zs) =
        xs ++ [.loopOpen] ++ ys ++ .loopClose :: zs := by
      simp
    have hsecond : xs.length + ys.length + 1 = (xs ++ [Symbol.loopOpen] ++ ys).length := by
      simp only [List.length_append, List.length_singleton]
      omega
    have hfirst : xs.length + 1 = (xs ++ [Symbol.loopOpen]).length := by
      rw [List.length_append, List.length_singleton]
    rw [hsplit, hsecond, List.take_left, hfirst, List.drop_left]
    exact hys
  · rintro ⟨hlt, hopen, hclose, hbalanced⟩
    -- The program is split at the `]` first, and what is before it at the `[`.
    rcases eq_append_of_getElem? hclose with ⟨us, zs, rfl, rfl⟩
    rw [List.getElem?_append_left hlt] at hopen
    rcases eq_append_of_getElem? hopen with ⟨xs, ys, rfl, rfl⟩
    have hfirst : xs.length + 1 = (xs ++ [Symbol.loopOpen]).length := by
      rw [List.length_append, List.length_singleton]
    rw [List.take_left, List.append_cons, hfirst, List.drop_left] at hbalanced
    refine ⟨xs, ys, zs, by simp, hbalanced, rfl, ?_⟩
    rw [List.length_append, List.length_cons, Nat.add_assoc]

namespace IsPair

/-- What stands before a row moves its pairs. -/
theorem prepend (h : IsPair symbols i j) (ws : List Symbol) :
    IsPair (ws ++ symbols) (ws.length + i) (ws.length + j) := by
  rcases h with ⟨xs, ys, zs, rfl, hys, rfl, rfl⟩
  refine ⟨ws ++ xs, ys, zs, (List.append_assoc _ _ _).symm, hys, ?_, ?_⟩
  · rw [List.length_append]
  · rw [List.length_append, Nat.add_assoc, Nat.add_assoc, Nat.add_assoc]

theorem second_unique (h : IsPair symbols i j) (h' : IsPair symbols i k) : j = k := by
  have hpartner := h.partner?_first (p := ⟨symbols⟩)
  rw [h'.partner?_first (p := ⟨symbols⟩)] at hpartner
  exact (Option.some.inj hpartner).symm

/-- A bracket that begins one pair does not end another. -/
theorem first_ne_second (h : IsPair symbols i j) (h' : IsPair symbols k l) : i ≠ l := by
  rintro rfl
  have hopen := h.getElem?_first
  rw [h'.getElem?_second] at hopen
  cases hopen

end IsPair

/-- In a balanced row every bracket has a partner. -/
theorem Balanced.exists_isPair {row : List Symbol} (h : Balanced row) {bracket : Symbol}
    (hi : row[i]? = some bracket) (hbracket : bracket.isBracket = true) :
    ∃ j, IsPair row i j ∨ IsPair row j i := by
  rcases Program.symbol_cases bracket with rfl | rfl | hplain
  · have hsome := Program.partner?_ne_none_of_balanced (p := ⟨row⟩) h hi
    rcases Option.ne_none_iff_exists'.mp hsome with ⟨j, hj⟩
    exact ⟨j, isPair_of_partner? hj⟩
  · -- A `]` has a partner wherever the depth never falls below zero.
    have hsome : (Program.depthAfter? 0 row).isSome := by
      rw [h.depthAfter? 0]
      rfl
    rcases exists_isPair_of_close hsome hi with ⟨j, hpair⟩
    exact ⟨j, .inr hpair⟩
  · rw [hplain] at hbracket
    cases hbracket

namespace IsPair

/-- Between two partners there are only brackets that have their partners there, too. -/
theorem exists_inside (h : IsPair symbols i j) (hik : i < k) (hkj : k < j) {bracket : Symbol}
    (hk : symbols[k]? = some bracket) (hbracket : bracket.isBracket = true) :
    ∃ l, i < l ∧ l < j ∧ (IsPair symbols k l ∨ IsPair symbols l k) := by
  rcases h with ⟨xs, ys, zs, rfl, hys, rfl, rfl⟩
  have hsplit : xs ++ .loopOpen :: (ys ++ .loopClose :: zs) =
      (xs ++ [.loopOpen]) ++ (ys ++ .loopClose :: zs) := by
    simp
  have hbefore : (xs ++ [Symbol.loopOpen]).length = xs.length + 1 := by
    rw [List.length_append, List.length_singleton]
  -- The bracket stands in the balanced row, and its partner with it.
  obtain ⟨m, rfl⟩ : ∃ m, k = (xs ++ [Symbol.loopOpen]).length + m := by
    rw [hbefore]
    exact ⟨k - (xs.length + 1), by omega⟩
  have hm : m < ys.length := by omega
  rw [hsplit, List.getElem?_append_right (Nat.le_add_right _ _), Nat.add_sub_cancel_left,
    List.getElem?_append_left hm] at hk
  rcases hys.exists_isPair hk hbracket with ⟨n, hn⟩
  -- Its partner is a symbol of the same row.
  have hlt : n < ys.length := by
    rcases hn with hpair | hpair
    · exact (List.getElem?_eq_some_iff.mp hpair.getElem?_second).1
    · exact (List.getElem?_eq_some_iff.mp hpair.getElem?_first).1
  refine ⟨(xs ++ [Symbol.loopOpen]).length + n, by omega, by omega, ?_⟩
  rw [hsplit]
  rcases hn with hpair | hpair
  · exact .inl ((hpair.append _).prepend _)
  · exact .inr ((hpair.append _).prepend _)

/-- A pair that begins behind the beginning of another one is inside it, or behind it. -/
theorem lt_or_inside (h : IsPair symbols i j) (h' : IsPair symbols k l) (hik : i < k) :
    j < k ∨ l < j := by
  rcases Nat.lt_trichotomy j k with hjk | rfl | hkj
  · exact .inl hjk
  · exact absurd rfl (h'.first_ne_second h)
  · right
    -- The bracket inside the first pair has its partner there, too, and this is its only one.
    rcases h.exists_inside hik hkj h'.getElem?_first rfl with ⟨m, -, hmj, hpair | hpair⟩
    · rwa [h'.second_unique hpair]
    · exact absurd rfl (h'.first_ne_second hpair)

/-- Two pairs are the same, disjoint, or nested. -/
theorem nested (h : IsPair symbols i j) (h' : IsPair symbols k l) :
    (i = k ∧ j = l) ∨ j < k ∨ l < i ∨ (i < k ∧ l < j) ∨ (k < i ∧ j < l) := by
  rcases Nat.lt_trichotomy i k with hik | rfl | hki
  · rcases h.lt_or_inside h' hik with hjk | hlj
    · exact .inr (.inl hjk)
    · exact .inr (.inr (.inr (.inl ⟨hik, hlj⟩)))
  · exact .inl ⟨rfl, h.second_unique h'⟩
  · rcases h'.lt_or_inside h hki with hli | hjl
    · exact .inr (.inr (.inl hli))
    · exact .inr (.inr (.inr (.inr ⟨hki, hjl⟩)))

end IsPair

end

/-! ## The counter of a scan -/

namespace Guarded

/-- The scan for a partner, with a counter of open loops that must not fall below zero. -/
def returnOffset? (inward outward : Symbol) (depth : Nat) :
    List Symbol → Except Violation (Option Nat)
  | [] => .ok none
  | s :: rest => do
    if s = inward then
      let offset ← returnOffset? inward outward (depth + 1) rest
      return offset.map (· + 1)
    else if s = outward then
      let depth ← sub depth 1
      if depth = 0 then
        return some 0
      else
        let offset ← returnOffset? inward outward depth rest
        return offset.map (· + 1)
    else
      let offset ← returnOffset? inward outward depth rest
      return offset.map (· + 1)

/-- The partner of a bracket, by a scan in either direction under guard. -/
def partner? (p : Program) (index : Nat) : Except Violation (Option Nat) :=
  match p.symbols[index]? with
  | some .loopOpen => do
    let offset ← returnOffset? .loopOpen .loopClose 0 (p.symbols.drop index)
    return offset.map (index + ·)
  | some .loopClose => do
    let offset ← returnOffset? .loopClose .loopOpen 0 (p.symbols.take (index + 1)).reverse
    return offset.map (index - ·)
  | _ => return none

/-- As long as a scan goes on, some loop is open. So there is one to be closed. -/
theorem returnOffset?_succ (inward outward : Symbol) (depth : Nat) (row : List Symbol) :
    returnOffset? inward outward (depth + 1) row =
      .ok (Program.returnOffset? inward outward (depth + 1) row) := by
  induction row generalizing depth with
  | nil => rfl
  | cons s rest ih =>
    rw [returnOffset?, Program.returnOffset?]
    split
    · rw [ih]
      rfl
    · split
      · rw [sub_eq (Nat.le_add_left 1 depth), Nat.add_sub_cancel]
        -- With the last loop closed the scan ends; else it goes on with one loop less.
        cases depth with
        | zero => rfl
        | succ depth =>
          show (do
            let offset ← returnOffset? inward outward (depth + 1) rest
            return offset.map (· + 1)) = _
          rw [ih]
          rfl
      · rw [ih]
        rfl

/-- A scan begins at a bracket that opens a loop, in its direction. -/
theorem returnOffset?_of_head {inward outward : Symbol} {row : List Symbol}
    (h : row.head? = some inward) :
    returnOffset? inward outward 0 row = .ok (Program.returnOffset? inward outward 0 row) := by
  cases row with
  | nil => cases h
  | cons s rest =>
    obtain rfl := Option.some.inj h
    rw [returnOffset?, Program.returnOffset?, if_pos rfl, if_pos rfl, returnOffset?_succ]
    rfl

/-- Neither scan closes more loops than have been opened. -/
theorem partner?_eq (p : Program) (index : Nat) : partner? p index = .ok (p.partner? index) := by
  unfold partner? Program.partner?
  cases hsymbol : p.symbols[index]? with
  | none => rfl
  | some s =>
    cases s with
    | loopOpen =>
      have hhead : (p.symbols.drop index).head? = some .loopOpen := by
        rw [List.head?_drop, hsymbol]
      dsimp only
      rw [returnOffset?_of_head hhead]
      rfl
    | loopClose =>
      have hhead : (p.symbols.take (index + 1)).reverse.head? = some .loopClose := by
        rw [List.head?_reverse, List.getLast?_take, if_neg (Nat.succ_ne_zero index),
          Nat.add_sub_cancel, hsymbol]
        rfl
      dsimp only
      rw [returnOffset?_of_head hhead]
      rfl
    | _ => rfl

end Guarded

/-! ## Partners -/

namespace Program

variable {p : Program} {i j : Nat}

/-- Partners find each other. -/
theorem partner?_comm : p.partner? i = some j ↔ p.partner? j = some i := by
  rw [partner?_eq_some_iff, partner?_eq_some_iff]
  exact or_comm

/-- The earlier one of two partners is the first of the pair. -/
theorem isPair_of_partner?_of_lt (h : p.partner? i = some j) (hlt : i < j) :
    IsPair p.symbols i j := by
  rcases isPair_of_partner? h with hpair | hpair
  · exact hpair
  · exact absurd hpair.lt (Nat.not_lt_of_lt hlt)

/-- Two partners are a pair from the earlier one to the later one. -/
theorem partner?_eq_some_iff_min_max :
    p.partner? i = some j ↔ IsPair p.symbols (min i j) (max i j) := by
  rcases Nat.lt_trichotomy i j with hlt | rfl | hlt
  · rw [Nat.min_eq_left (Nat.le_of_lt hlt), Nat.max_eq_right (Nat.le_of_lt hlt)]
    exact ⟨fun h => isPair_of_partner?_of_lt h hlt, IsPair.partner?_first⟩
  · rw [Nat.min_self, Nat.max_self, partner?_eq_some_iff, or_self]
  · rw [Nat.min_eq_right (Nat.le_of_lt hlt), Nat.max_eq_left (Nat.le_of_lt hlt), partner?_comm]
    exact ⟨fun h => isPair_of_partner?_of_lt h hlt, IsPair.partner?_first⟩

end Program

/-- Scanning from the brackets of a program finds pairs, and these are well nested, whatever
brackets it has too many of. Partners find each other. They are a `[` and, behind it, a `]`, such
that the program between them is balanced, and any two brackets like that are partners. Of two pairs
that are not the same, one is behind the other or strictly inside it. The counter of a scan never
falls below zero, in neither direction. -/
theorem partners_nested (p : Program) :
    (∀ i j, p.partner? i = some j ↔ p.partner? j = some i) ∧
    (∀ i j, p.partner? i = some j ↔ min i j < max i j ∧
      p.symbols[min i j]? = some .loopOpen ∧ p.symbols[max i j]? = some .loopClose ∧
      (p.between (min i j) (max i j)).isBalanced = true) ∧
    (∀ i j k l, p.partner? i = some j → p.partner? k = some l → i < j → k < l →
      (i = k ∧ j = l) ∨ j < k ∨ l < i ∨ (i < k ∧ l < j) ∨ (k < i ∧ j < l)) ∧
    (∀ i, Guarded.partner? p i = .ok (p.partner? i)) := by
  refine ⟨fun i j => Program.partner?_comm, ?_, ?_, Guarded.partner?_eq p⟩
  · intro i j
    rw [Program.partner?_eq_some_iff_min_max, isPair_iff, Program.isBalanced_iff]
    rfl
  · intro i j k l hij hkl hlt hlt'
    have hpair := Program.isPair_of_partner?_of_lt hij hlt
    have hpair' := Program.isPair_of_partner?_of_lt hkl hlt'
    exact hpair.nested hpair'

/-- A `]` too many at the front and a `[` too many in the middle have no partner, and do not keep
the others from finding theirs: the first loop has a loop inside it, and the last one is behind the
`[` that nothing closes. -/
theorem partners_nested_surplus :
    (Program.parse "][[-]+][[.]").partner? 1 = some 6 ∧
      (Program.parse "][[-]+][[.]").partner? 6 = some 1 ∧
      (Program.parse "][[-]+][[.]").partner? 2 = some 4 ∧
      ((Program.parse "][[-]+][[.]").between 1 6).isBalanced = true ∧
      ((1 = 2 ∧ 6 = 4) ∨ 6 < 2 ∨ 4 < 1 ∨ (1 < 2 ∧ 4 < 6) ∨ (2 < 1 ∧ 6 < 4)) ∧
      Guarded.partner? (Program.parse "][[-]+][[.]") 7 = .ok none := by
  have houter : (Program.parse "][[-]+][[.]").partner? 1 = some 6 := by decide
  have hinner : (Program.parse "][[-]+][[.]").partner? 2 = some 4 := by decide
  have hnone : (Program.parse "][[-]+][[.]").partner? 7 = none := by decide
  rcases partners_nested (Program.parse "][[-]+][[.]") with ⟨hcomm, hpairs, hnested, hguarded⟩
  have hbetween := ((hpairs 1 6).mp houter).2.2.2
  have hplaces := hnested 1 6 2 4 houter hinner (by decide) (by decide)
  have hscan := hguarded 7
  rw [hnone] at hscan
  exact ⟨houter, (hcomm 1 6).mp houter, hinner, hbetween, hplaces, hscan⟩

end TapeBreeder
