/-!
# Tapes

A tape is a row of byte cells with a cursor. It begins at its left end with one cell, grows to
the right by one zero cell whenever the cursor moves past the last one, and the cursor stays put
when it is told to move left of the first cell. Cells wrap around.
-/

namespace TapeBreeder

/-- The cells that have been visited, and the position of the cursor among them. -/
structure Tape where
  cells : Array UInt8
  cursor : Nat
deriving DecidableEq, Repr

namespace Tape

/-- One zero cell under the cursor. -/
def blank : Tape :=
  ⟨#[0], 0⟩

/-- The current cell. -/
def read (t : Tape) : UInt8 :=
  t.cells.getD t.cursor 0

/-- Replace the current cell. -/
def write (t : Tape) (value : UInt8) : Tape :=
  ⟨t.cells.setIfInBounds t.cursor value, t.cursor⟩

/-- Move one cell to the right, onto a fresh zero cell at the right end. -/
def moveRight (t : Tape) : Tape :=
  if t.cursor + 1 = t.cells.size then ⟨t.cells.push 0, t.cursor + 1⟩
  else ⟨t.cells, t.cursor + 1⟩

/-- Move one cell to the left, or stay at the left end. -/
def moveLeft (t : Tape) : Tape :=
  ⟨t.cells, t.cursor - 1⟩

end Tape

end TapeBreeder
