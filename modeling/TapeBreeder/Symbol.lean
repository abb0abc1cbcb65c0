/-!
# Symbols of the tape language

The tape language has eight symbols, each written as one character. Six of them work on the
tape, the input and the output; the two brackets delimit loops.

* `Symbol` — the alphabet, with `Symbol.toChar` and `Symbol.ofChar?` as its spelling.
* `Symbol.all`, `Symbol.starters`, `Symbol.plain` — the alphabet, the symbols a generated
  program may continue with, and the symbols that never touch the bracket structure.

`ofChar?_eq_some_iff` says that the two directions of the spelling agree.
-/

namespace TapeBreeder

/-- One instruction of the tape language. -/
inductive Symbol where
  /-- Add one to the current cell. -/
  | increment
  /-- Take one from the current cell. -/
  | decrement
  /-- Move the cursor one cell to the left, staying put at the left end. -/
  | left
  /-- Move the cursor one cell to the right, onto a fresh cell if need be. -/
  | right
  /-- Print the current cell. -/
  | output
  /-- Store the next input character in the current cell. -/
  | input
  /-- Skip the loop when the current cell is zero. -/
  | loopOpen
  /-- Repeat the loop when the current cell is not zero. -/
  | loopClose
deriving DecidableEq, Repr

namespace Symbol

/-! ## Spelling -/

/-- The character that spells a symbol. -/
def toChar : Symbol → Char
  | increment => '+'
  | decrement => '-'
  | left => '<'
  | right => '>'
  | output => '.'
  | input => ','
  | loopOpen => '['
  | loopClose => ']'

/-- The symbol that a character spells, if it spells one. -/
def ofChar? (c : Char) : Option Symbol :=
  match c with
  | '+' => some increment
  | '-' => some decrement
  | '<' => some left
  | '>' => some right
  | '.' => some output
  | ',' => some input
  | '[' => some loopOpen
  | ']' => some loopClose
  | _ => none

@[simp] theorem ofChar?_toChar (s : Symbol) : ofChar? s.toChar = some s := by
  cases s <;> rfl

theorem ofChar?_eq_some_iff {c : Char} {s : Symbol} : ofChar? c = some s ↔ s.toChar = c := by
  constructor
  · unfold ofChar?
    split <;> simp_all [toChar] <;> rintro rfl <;> rfl
  · rintro rfl
    exact ofChar?_toChar s

/-! ## Classes of symbols -/

/-- Whether a symbol is one of the two brackets. -/
def isBracket : Symbol → Bool
  | loopOpen | loopClose => true
  | _ => false

/-- The symbols that are not brackets. -/
def plain : List Symbol :=
  [increment, decrement, left, right, output, input]

/-- The symbols that a generated program may continue with: a closing bracket is only ever
written together with its loop. -/
def starters : List Symbol :=
  [increment, decrement, left, right, output, input, loopOpen]

/-- The whole alphabet. -/
def all : List Symbol :=
  [increment, decrement, left, right, output, input, loopOpen, loopClose]

@[simp] theorem mem_all (s : Symbol) : s ∈ all := by
  cases s <;> decide

theorem mem_plain_iff {s : Symbol} : s ∈ plain ↔ s.isBracket = false := by
  cases s <;> decide

theorem mem_starters_iff {s : Symbol} : s ∈ starters ↔ s ≠ loopClose := by
  cases s <;> decide

end Symbol

end TapeBreeder
