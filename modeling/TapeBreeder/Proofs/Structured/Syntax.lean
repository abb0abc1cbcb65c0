import TapeBreeder.Proofs.Brackets.Partner

/-!
# Structured programs

The structured form of a program is a tree: instructions one after the other, loops with a body,
and `[`s that are never closed. The symbols of the tree are the program, so the tree says how the
brackets of the program belong together, without any table of jumps.

* `Structured` — the trees; `Structured.symbols` — the row of symbols that spells a tree.
* `Program.HasStructure` — the tree spells the program, loop bodies are closed, and an unclosed
  `[` carries the position where it stands.
* `existsUnique_structure` — a loadable program has exactly one structure.
-/

namespace TapeBreeder

open Program (depthAfter? returnOffset?)

/-! ## Trees -/

/-- The instructions of the language; brackets are no instructions, but structure. -/
inductive Instruction where
  | increment
  | decrement
  | left
  | right
  | output
  | input
deriving DecidableEq, Repr

/-- The symbol that spells an instruction. -/
def Instruction.toSymbol : Instruction → Symbol
  | increment => .increment
  | decrement => .decrement
  | left => .left
  | right => .right
  | output => .output
  | input => .input

theorem Instruction.isBracket_toSymbol (i : Instruction) : i.toSymbol.isBracket = false := by
  cases i <;> rfl

theorem Instruction.toSymbol_injective {i j : Instruction} (h : i.toSymbol = j.toSymbol) :
    i = j := by
  cases i <;> cases j <;> first | rfl | cases h

/-- A symbol that is no bracket spells an instruction. With the two lemmas above, the six of them
are never enumerated again. -/
theorem exists_instruction {s : Symbol} (hs : s.isBracket = false) :
    ∃ i : Instruction, i.toSymbol = s := by
  cases s with
  | increment => exact ⟨.increment, rfl⟩
  | decrement => exact ⟨.decrement, rfl⟩
  | left => exact ⟨.left, rfl⟩
  | right => exact ⟨.right, rfl⟩
  | output => exact ⟨.output, rfl⟩
  | input => exact ⟨.input, rfl⟩
  | loopOpen => cases hs
  | loopClose => cases hs

/-- A structured program: what is to be done first, and then the rest. -/
inductive Structured where
  /-- Nothing is left. -/
  | done
  /-- An instruction. -/
  | perform (instruction : Instruction) (rest : Structured)
  /-- A loop around a body. -/
  | loop (body rest : Structured)
  /-- A `[` at `position` that is never closed. -/
  | unclosed (position : Nat) (rest : Structured)

namespace Structured

/-- The row of symbols that spells a tree. -/
def symbols : Structured → List Symbol
  | done => []
  | perform i rest => i.toSymbol :: rest.symbols
  | loop body rest => .loopOpen :: (body.symbols ++ .loopClose :: rest.symbols)
  | unclosed _ rest => .loopOpen :: rest.symbols

/-- The number of symbols that spell a tree. -/
def size : Structured → Nat
  | done => 0
  | perform _ rest => rest.size + 1
  | loop body rest => body.size + rest.size + 2
  | unclosed _ rest => rest.size + 1

/-- Whether all loops of a tree are closed. -/
def IsClosed : Structured → Prop
  | done => True
  | perform _ rest => rest.IsClosed
  | loop body rest => body.IsClosed ∧ rest.IsClosed
  | unclosed _ _ => False

/-- Whether a tree that begins at a position is as a program there would be read: a `]` closes
the last open `[`, so that loop bodies are closed, and an unclosed `[` knows where it stands. -/
def IsPlacedAt : Nat → Structured → Prop
  | _, done => True
  | position, perform _ rest => rest.IsPlacedAt (position + 1)
  | position, loop body rest =>
    body.IsClosed ∧ body.IsPlacedAt (position + 1) ∧ rest.IsPlacedAt (position + body.size + 2)
  | position, unclosed p rest => p = position ∧ rest.IsPlacedAt (position + 1)

@[simp] theorem length_symbols (t : Structured) : t.symbols.length = t.size := by
  induction t with
  | done => rfl
  | perform i rest ih => simp [symbols, size, ih]
  | loop body rest ihbody ihrest =>
    simp only [symbols, size, List.length_cons, List.length_append, ihbody, ihrest]
    omega
  | unclosed p rest ih => simp [symbols, size, ih]

/-! The positions behind a tree, counted from its parts. -/

theorem add_size_perform (position : Nat) (i : Instruction) (rest : Structured) :
    position + (perform i rest).size = position + 1 + rest.size := by
  rw [size]
  omega

theorem add_size_loop (position : Nat) (body rest : Structured) :
    position + (loop body rest).size = position + body.size + 2 + rest.size := by
  rw [size]
  omega

theorem add_size_unclosed (position p : Nat) (rest : Structured) :
    position + (unclosed p rest).size = position + 1 + rest.size := by
  rw [size]
  omega

/-! ## Closed trees and balanced rows -/

/-- A tree whose loops are closed spells a balanced row. -/
theorem IsClosed.balanced {t : Structured} (h : t.IsClosed) : Balanced t.symbols := by
  induction t with
  | done => exact .nil
  | perform i rest ih => exact .plain i.isBracket_toSymbol (ih h)
  | loop body rest ihbody ihrest => exact .loop (ihbody h.1) (ihrest h.2)
  | unclosed p rest _ => cases h

end Structured

/-- A balanced row is spelled by a closed tree, wherever it stands. -/
theorem Balanced.exists_structure {xs : List Symbol} (h : Balanced xs) (position : Nat) :
    ∃ t : Structured, t.symbols = xs ∧ t.IsPlacedAt position ∧ t.IsClosed := by
  induction h generalizing position with
  | nil => exact ⟨.done, rfl, trivial, trivial⟩
  | plain hs _ ih =>
    rcases ih (position + 1) with ⟨t, rfl, hplaced, hclosed⟩
    rcases exists_instruction hs with ⟨i, rfl⟩
    exact ⟨.perform i t, rfl, hplaced, hclosed⟩
  | loop _ _ ihbody ihrest =>
    rcases ihbody (position + 1) with ⟨body, rfl, hbody, hbodyClosed⟩
    rcases ihrest (position + body.size + 2) with ⟨rest, rfl, hrest, hrestClosed⟩
    exact ⟨.loop body rest, rfl, ⟨hbodyClosed, hbody, hrest⟩, hbodyClosed, hrestClosed⟩

/-! ## Existence -/

namespace Structured

/-- The tree of any row whose depth never falls below zero. -/
theorem exists_of_depthAfter? {xs : List Symbol} (h : (depthAfter? 0 xs).isSome)
    (position : Nat) : ∃ t : Structured, t.symbols = xs ∧ t.IsPlacedAt position := by
  -- By induction on the length, since what is behind a loop is much shorter than the row.
  induction hn : xs.length using Nat.strongRecOn generalizing xs position with
  | ind n ih =>
    cases xs with
    | nil => exact ⟨.done, rfl, trivial⟩
    | cons s xs =>
      rw [List.length_cons] at hn
      rcases Program.symbol_cases s with rfl | rfl | hs
      · -- Whether the `[` is closed is for the forward scan to say.
        cases hscan : returnOffset? .loopOpen .loopClose 1 xs with
        | none =>
          -- It is not, and the rest can be read without it.
          have hrest := depthAfter?_isSome_of_returnOffset?_eq_none (k := 0) hscan
          rcases ih xs.length (by omega) hrest (position + 1) rfl with ⟨t, rfl, hplaced⟩
          exact ⟨.unclosed position t, rfl, rfl, hplaced⟩
        | some m =>
          -- It is, and what stands between the two is a body.
          rcases exists_of_returnOffset?_eq_some (k := 0) hscan with ⟨ys, zs, rfl, rfl, hys⟩
          rw [List.length_append, List.length_cons] at hn
          have hbalanced := balanced_of_depthAfter? hys
          rcases hbalanced.exists_structure (position + 1) with ⟨body, rfl, hbody, hclosed⟩
          rw [Program.depthAfter?_open, Program.depthAfter?_append, hbalanced.depthAfter?,
            Option.bind_some, Program.depthAfter?_close_succ] at h
          rcases ih zs.length (by omega) h (position + body.size + 2) rfl with ⟨rest, rfl, hrest⟩
          exact ⟨.loop body rest, rfl, hclosed, hbody, hrest⟩
      · -- A `]` would take the depth below zero.
        cases h
      · rcases exists_instruction hs with ⟨i, rfl⟩
        rw [Program.depthAfter?_plain hs] at h
        rcases ih xs.length (by omega) h (position + 1) rfl with ⟨t, rfl, hplaced⟩
        exact ⟨.perform i t, rfl, hplaced⟩

/-- No tree spells a row that closes more than it opens. So rows with a tree are those that can be
loaded. -/
theorem IsPlacedAt.depthAfter?_isSome {t : Structured} {position : Nat}
    (h : t.IsPlacedAt position) (d : Nat) : (depthAfter? d t.symbols).isSome := by
  induction t generalizing position d with
  | done => rfl
  | perform i rest ih =>
    rw [symbols, Program.depthAfter?_plain i.isBracket_toSymbol]
    exact ih h d
  | loop body rest _ ihrest =>
    rw [symbols, Program.depthAfter?_open, Program.depthAfter?_append,
      h.1.balanced.depthAfter?, Option.bind_some, Program.depthAfter?_close_succ]
    exact ihrest h.2.2 d
  | unclosed p rest ih =>
    rw [symbols, Program.depthAfter?_open]
    exact ih h.2 (d + 1)

end Structured

/-! ## Uniqueness -/

/-- A balanced row and the `]` behind it leave nothing open as to where the row ends. -/
theorem Balanced.append_close_inj {xs ys us vs : List Symbol} (hx : Balanced xs)
    (hy : Balanced ys) (h : xs ++ .loopClose :: us = ys ++ .loopClose :: vs) :
    xs = ys ∧ us = vs := by
  -- Were one of the rows longer, it would run into the `]` behind the other one at depth zero.
  have hlonger : ∀ {as bs cs : List Symbol}, Balanced as → Balanced bs →
      bs ≠ as ++ .loopClose :: cs := by
    rintro as bs cs ha hb rfl
    have hdepth := hb.depthAfter? 0
    rw [Program.depthAfter?_append, ha.depthAfter?, Option.bind_some,
      Program.depthAfter?_close_zero] at hdepth
    cases hdepth
  rcases List.append_eq_append_iff.mp h with ⟨cs, hsplit, hrest⟩ | ⟨cs, hsplit, hrest⟩
  · cases cs with
    | nil =>
      rw [List.append_nil] at hsplit
      exact ⟨hsplit.symm, (List.cons.inj hrest).2⟩
    | cons c cs =>
      rcases List.cons.inj hrest with ⟨rfl, -⟩
      exact absurd hsplit (hlonger hx hy)
  · cases cs with
    | nil =>
      rw [List.append_nil] at hsplit
      exact ⟨hsplit, (List.cons.inj hrest).2.symm⟩
    | cons c cs =>
      rcases List.cons.inj hrest with ⟨rfl, -⟩
      exact absurd hsplit (hlonger hy hx)

namespace Structured

/-- A closed loop is not spelled like an unclosed one. -/
theorem symbols_loop_ne_unclosed {body rest t : Structured} {position : Nat}
    (hbody : body.IsClosed) (ht : t.IsPlacedAt position) (p : Nat) :
    (loop body rest).symbols ≠ (unclosed p t).symbols := by
  intro h
  have htail : body.symbols ++ .loopClose :: rest.symbols = t.symbols := (List.cons.inj h).2
  -- Behind the unclosed `[`, the `]` of the loop would have nothing to close.
  have hsome := ht.depthAfter?_isSome 0
  rw [← htail, Program.depthAfter?_append, hbody.balanced.depthAfter?, Option.bind_some,
    Program.depthAfter?_close_zero] at hsome
  cases hsome

/-- A tree that begins with an instruction is told by its first symbol from one that begins with a
`[`. -/
theorem perform_symbols_ne {i : Instruction} {xs ys : List Symbol} :
    i.toSymbol :: xs ≠ .loopOpen :: ys := by
  intro h
  have hbracket := i.isBracket_toSymbol
  rw [(List.cons.inj h).1] at hbracket
  cases hbracket

/-- A row has one tree at most. The only choice in reading it is whether a `[` is closed, and that
is settled by what follows. -/
theorem IsPlacedAt.eq_of_symbols {t u : Structured} {position : Nat} (ht : t.IsPlacedAt position)
    (hu : u.IsPlacedAt position) (h : t.symbols = u.symbols) : t = u := by
  -- By the first symbol of the row; two loops are compared by where their bodies end.
  induction t generalizing u position with
  | done =>
    cases u with
    | done => rfl
    | _ => cases h
  | perform i rest ih =>
    cases u with
    | perform j rest' =>
      rcases List.cons.inj h with ⟨hij, hrest⟩
      rw [Instruction.toSymbol_injective hij, ih ht hu hrest]
    | done => cases h
    | loop => exact absurd h perform_symbols_ne
    | unclosed => exact absurd h perform_symbols_ne
  | loop body rest ihbody ihrest =>
    cases u with
    | loop body' rest' =>
      have htails := (List.cons.inj h).2
      rcases ht.1.balanced.append_close_inj hu.1.balanced htails with ⟨hbody, hrest⟩
      obtain rfl := ihbody ht.2.1 hu.2.1 hbody
      rw [ihrest ht.2.2 hu.2.2 hrest]
    | done => cases h
    | perform => exact absurd h.symm perform_symbols_ne
    | unclosed => exact absurd h (symbols_loop_ne_unclosed ht.1 hu.2 _)
  | unclosed p rest ih =>
    cases u with
    | unclosed p' rest' =>
      rcases ht with ⟨rfl, hrest⟩
      rcases hu with ⟨rfl, hrest'⟩
      rw [ih hrest hrest' (List.cons.inj h).2]
    | done => cases h
    | perform => exact absurd h.symm perform_symbols_ne
    | loop => exact absurd h.symm (symbols_loop_ne_unclosed hu.1 ht.2 _)

end Structured

/-- Whether a tree is the structure of a program. -/
def Program.HasStructure (p : Program) (t : Structured) : Prop :=
  t.symbols = p.symbols ∧ t.IsPlacedAt 0

/-- A program that can be loaded has exactly one structure. -/
theorem Program.existsUnique_structure {p : Program} (h : p.isLoadable) :
    ∃ t, ∀ u, p.HasStructure u ↔ u = t := by
  rw [isLoadable_iff] at h
  rcases Structured.exists_of_depthAfter? h 0 with ⟨t, ht, hplaced⟩
  refine ⟨t, ?_⟩
  intro u
  constructor
  · rintro ⟨hu, huplaced⟩
    exact huplaced.eq_of_symbols hplaced (hu.trans ht.symm)
  · rintro rfl
    exact ⟨ht, hplaced⟩

end TapeBreeder
