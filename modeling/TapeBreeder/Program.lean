import TapeBreeder.Symbol

/-!
# Programs

A program is a list of symbols. Its source text may hold anything: characters outside the
alphabet are comments, so reading a text keeps the symbols and drops the rest, and positions
in a program count symbols only.

* `Program.parse` — the program in a source text.
* `Program.render` — the source text of a program, without comments.
-/

namespace TapeBreeder

/-- A program of the tape language. -/
structure Program where
  symbols : List Symbol
deriving DecidableEq, Repr

namespace Program

/-- The number of symbols. -/
def length (p : Program) : Nat :=
  p.symbols.length

/-- Whether a program has no symbols. -/
def isEmpty (p : Program) : Bool :=
  p.symbols.isEmpty

/-- One program after the other. -/
def append (p q : Program) : Program :=
  ⟨p.symbols ++ q.symbols⟩

instance : Append Program :=
  ⟨append⟩

/-- The program in a source text; every character outside the alphabet is a comment. -/
def parse (source : String) : Program :=
  ⟨source.toList.filterMap Symbol.ofChar?⟩

/-- The source text of a program. -/
def render (p : Program) : String :=
  String.ofList (p.symbols.map Symbol.toChar)

@[simp] theorem symbols_append (p q : Program) : (p ++ q).symbols = p.symbols ++ q.symbols :=
  rfl

@[simp] theorem toList_render (p : Program) : p.render.toList = p.symbols.map Symbol.toChar := by
  simp [render]

end Program

end TapeBreeder
