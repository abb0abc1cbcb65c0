import TapeBreeder.Proofs.Brackets.Depth

/-!
# Partners

The partner of a bracket is found by a scan, forwards from `[` and backwards from `]`. Both scans
find a balanced row between the two brackets; the backward one is the forward one in a mirror.

* `IsPair` — two positions that hold a `[` and a `]` with a balanced row between them.
* `isPair_of_partner?` — what either scan finds is a pair.
* `depthAfter?_isSome_of_returnOffset?_eq_none` — a `[` that finds nothing is never closed, so
  the symbols behind it can be read without it.
-/

namespace TapeBreeder

open Program (depthAfter? returnOffset?)

/-! ## Mirror images -/

/-- The bracket that faces the other way; other symbols are their own mirror images. -/
def Symbol.flip : Symbol → Symbol
  | .loopOpen => .loopClose
  | .loopClose => .loopOpen
  | s => s

@[simp] theorem Symbol.flip_flip (s : Symbol) : s.flip.flip = s := by
  cases s <;> rfl

theorem Symbol.isBracket_flip (s : Symbol) : s.flip.isBracket = s.isBracket := by
  cases s <;> rfl

theorem map_flip_map_flip (xs : List Symbol) : (xs.map Symbol.flip).map Symbol.flip = xs := by
  have hid : ∀ s ∈ xs, (Symbol.flip ∘ Symbol.flip) s = id s := by
    intro s _
    exact Symbol.flip_flip s
  rw [List.map_map, List.map_congr_left hid, List.map_id]

/-- A balanced row is balanced in a mirror. -/
theorem Balanced.mirror {xs : List Symbol} (h : Balanced xs) :
    Balanced (xs.map Symbol.flip).reverse := by
  induction h with
  | nil => exact .nil
  | @plain s rest hs _ ih =>
    rw [List.map_cons, List.reverse_cons]
    have hlast : Balanced [s.flip] := .plain (s.isBracket_flip.trans hs) .nil
    exact ih.append hlast
  | @loop body rest _ _ ihbody ihrest =>
    simp only [List.map_cons, List.map_append, List.reverse_cons, List.reverse_append,
      List.append_assoc]
    -- The mirror puts what follows the loop in front of it, and turns the loop around.
    exact ihrest.append (.loop ihbody .nil)

theorem returnOffset?_flip (k : Nat) (xs : List Symbol) :
    returnOffset? .loopClose .loopOpen k xs =
      returnOffset? .loopOpen .loopClose k (xs.map Symbol.flip) := by
  induction xs generalizing k with
  | nil => rfl
  | cons s xs ih => cases s <;> simp [returnOffset?, Symbol.flip, ih]

/-! ## The forward scan -/

theorem returnOffset?_plain {s : Symbol} (hs : s.isBracket = false) (k : Nat)
    (rest : List Symbol) :
    returnOffset? .loopOpen .loopClose k (s :: rest) =
      (returnOffset? .loopOpen .loopClose k rest).map (· + 1) := by
  cases s with
  | loopOpen => cases hs
  | loopClose => cases hs
  | _ => rfl

theorem returnOffset?_open (k : Nat) (rest : List Symbol) :
    returnOffset? .loopOpen .loopClose k (.loopOpen :: rest) =
      (returnOffset? .loopOpen .loopClose (k + 1) rest).map (· + 1) :=
  rfl

theorem returnOffset?_close_one (rest : List Symbol) :
    returnOffset? .loopOpen .loopClose 1 (.loopClose :: rest) = some 0 :=
  rfl

theorem returnOffset?_close_succ (k : Nat) (rest : List Symbol) :
    returnOffset? .loopOpen .loopClose (k + 2) (.loopClose :: rest) =
      (returnOffset? .loopOpen .loopClose (k + 1) rest).map (· + 1) :=
  rfl

/-- A scan that finds something has read a row that closes all but one of the open loops, and
then the `]` of that one. -/
theorem exists_of_returnOffset?_eq_some {k n : Nat} {xs : List Symbol}
    (h : returnOffset? .loopOpen .loopClose (k + 1) xs = some n) :
    ∃ ys zs, xs = ys ++ .loopClose :: zs ∧ ys.length = n ∧ depthAfter? k ys = some 0 := by
  induction xs generalizing k n with
  | nil => cases h
  | cons s xs ih =>
    rcases Program.symbol_cases s with rfl | rfl | hs
    · rw [returnOffset?_open] at h
      rcases Option.map_eq_some_iff.mp h with ⟨m, hm, rfl⟩
      rcases ih hm with ⟨ys, zs, rfl, rfl, hys⟩
      exact ⟨.loopOpen :: ys, zs, rfl, rfl, hys⟩
    · cases k with
      | zero =>
        -- The scan stops at this `]`.
        rw [returnOffset?_close_one] at h
        exact ⟨[], xs, rfl, Option.some.inj h, rfl⟩
      | succ k =>
        rw [returnOffset?_close_succ] at h
        rcases Option.map_eq_some_iff.mp h with ⟨m, hm, rfl⟩
        rcases ih hm with ⟨ys, zs, rfl, rfl, hys⟩
        exact ⟨.loopClose :: ys, zs, rfl, rfl, hys⟩
    · rw [returnOffset?_plain hs] at h
      rcases Option.map_eq_some_iff.mp h with ⟨m, hm, rfl⟩
      rcases ih hm with ⟨ys, zs, rfl, rfl, hys⟩
      exact ⟨s :: ys, zs, rfl, rfl, by rw [Program.depthAfter?_plain hs, hys]⟩

/-- A scan that finds nothing has stayed above zero, so that a counter that starts one lower does
not fall below it. -/
theorem depthAfter?_isSome_of_returnOffset?_eq_none {k : Nat} {xs : List Symbol}
    (h : returnOffset? .loopOpen .loopClose (k + 1) xs = none) : (depthAfter? k xs).isSome := by
  induction xs generalizing k with
  | nil => rfl
  | cons s xs ih =>
    rcases Program.symbol_cases s with rfl | rfl | hs
    · rw [returnOffset?_open, Option.map_eq_none_iff] at h
      exact ih h
    · cases k with
      -- At this `]` the scan would have found something.
      | zero => cases h
      | succ k =>
        rw [returnOffset?_close_succ, Option.map_eq_none_iff] at h
        exact ih h
    · rw [returnOffset?_plain hs, Option.map_eq_none_iff] at h
      rw [Program.depthAfter?_plain hs]
      exact ih h

/-! ## Pairs -/

/-- The positions of a `[` and a `]` with a balanced row between them. -/
def IsPair (symbols : List Symbol) (first second : Nat) : Prop :=
  ∃ xs ys zs, symbols = xs ++ .loopOpen :: (ys ++ .loopClose :: zs) ∧ Balanced ys ∧
    first = xs.length ∧ second = xs.length + ys.length + 1

theorem IsPair.lt {symbols : List Symbol} {first second : Nat}
    (h : IsPair symbols first second) : first < second := by
  rcases h with ⟨xs, ys, zs, -, -, rfl, rfl⟩
  omega

/-- A symbol at a position splits the row there. -/
theorem eq_append_of_getElem? {xs : List Symbol} {i : Nat} {s : Symbol}
    (h : xs[i]? = some s) : ∃ ys zs, xs = ys ++ s :: zs ∧ ys.length = i := by
  rcases List.getElem?_eq_some_iff.mp h with ⟨hi, rfl⟩
  refine ⟨xs.take i, xs.drop (i + 1), ?_, List.length_take_of_le (Nat.le_of_lt hi)⟩
  rw [List.getElem_cons_drop, List.take_append_drop]

/-- What a scan from a `[` finds is the `]` of a pair. -/
theorem isPair_of_forward {xs zs : List Symbol} {n : Nat}
    (h : returnOffset? .loopOpen .loopClose 0 (.loopOpen :: zs) = some n) :
    IsPair (xs ++ .loopOpen :: zs) xs.length (xs.length + n) := by
  rw [returnOffset?_open] at h
  rcases Option.map_eq_some_iff.mp h with ⟨m, hm, rfl⟩
  rcases exists_of_returnOffset?_eq_some (k := 0) hm with ⟨ys, zs, rfl, rfl, hys⟩
  exact ⟨xs, ys, zs, rfl, balanced_of_depthAfter? hys, rfl, rfl⟩

/-- What a scan from a `]` finds is the `[` of a pair. -/
theorem isPair_of_backward {xs zs : List Symbol} {n : Nat}
    (h : returnOffset? .loopClose .loopOpen 0 (.loopClose :: xs.reverse) = some n) :
    IsPair (xs ++ .loopClose :: zs) (xs.length - n) xs.length := by
  -- In the mirror this is a forward scan, and what it finds is mirrored back.
  rw [returnOffset?_flip, List.map_cons, Symbol.flip, returnOffset?_open] at h
  rcases Option.map_eq_some_iff.mp h with ⟨m, hm, rfl⟩
  rcases exists_of_returnOffset?_eq_some (k := 0) hm with ⟨ys, us, hsplit, rfl, hys⟩
  have hxs : xs = (us.map Symbol.flip).reverse ++ .loopOpen :: (ys.map Symbol.flip).reverse := by
    have hrev := congrArg (fun l => (l.map Symbol.flip).reverse) hsplit
    simp only [map_flip_map_flip, List.reverse_reverse] at hrev
    rw [hrev]
    simp [Symbol.flip]
  -- The row that the mirrored scan has read is balanced, and so it is in the mirror of the mirror.
  have hbalanced := (balanced_of_depthAfter? hys).mirror
  refine ⟨(us.map Symbol.flip).reverse, (ys.map Symbol.flip).reverse, zs, ?_, hbalanced, ?_, ?_⟩
  · rw [hxs, List.append_assoc, List.cons_append]
  all_goals
    rw [hxs]
    simp only [List.length_append, List.length_cons, List.length_reverse, List.length_map]
    omega

/-- What a scan finds is the other end of a pair. -/
theorem isPair_of_partner? {p : Program} {i j : Nat} (h : p.partner? i = some j) :
    IsPair p.symbols i j ∨ IsPair p.symbols j i := by
  unfold Program.partner? at h
  split at h
  · next hs =>
    left
    rcases eq_append_of_getElem? hs with ⟨xs, zs, hsplit, rfl⟩
    rw [hsplit, List.drop_left] at h
    rcases Option.map_eq_some_iff.mp h with ⟨n, hn, rfl⟩
    rw [hsplit]
    exact isPair_of_forward hn
  · next hs =>
    right
    rcases eq_append_of_getElem? hs with ⟨xs, zs, hsplit, rfl⟩
    -- The backward scan reads the symbols up to the bracket from their end.
    rw [hsplit, List.take_length_add_append, List.take_one, List.head?_cons] at h
    rcases Option.map_eq_some_iff.mp h with ⟨n, hn, rfl⟩
    rw [hsplit]
    apply isPair_of_backward
    simpa using hn
  · cases h

end TapeBreeder
