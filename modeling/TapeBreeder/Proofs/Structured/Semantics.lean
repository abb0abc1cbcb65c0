import TapeBreeder.Proofs.Structured.Syntax

/-!
# The meaning of structured programs

A structured program works on a store: an endless tape of numbers below 256, a cursor, the input
that is left, and the text printed so far. Its meaning knows neither positions nor jumps: a loop
is a `while` over its body, and a `[` without partner fails at zero and is skipped otherwise.

* `Store.perform` — the effect of one instruction.
* `Structured.Ends` — a structured program comes to an end, by halting or by getting stuck.
-/

namespace TapeBreeder

/-! ## Stores -/

/-- What a structured program works on. -/
structure Store where
  cells : Nat → Nat
  cursor : Nat
  unread : List Char
  printed : List Char

namespace Store

/-- A blank tape, and the whole input to be read. -/
def start (input : String) : Store :=
  ⟨fun _ => 0, 0, input.toList, []⟩

/-- The number under the cursor. -/
def current (s : Store) : Nat :=
  s.cells s.cursor

/-- Replace the number under the cursor. -/
def set (s : Store) (value : Nat) : Store :=
  { s with cells := fun k => if k = s.cursor then value else s.cells k }

/-- The text that has been printed. -/
def text (s : Store) : String :=
  String.ofList s.printed

/-- The effect of an instruction. -/
def perform : Instruction → Store → Store
  | .increment, s => s.set ((s.current + 1) % 256)
  | .decrement, s => s.set ((s.current + 255) % 256)
  | .left, s => { s with cursor := s.cursor - 1 }
  | .right, s => { s with cursor := s.cursor + 1 }
  | .output, s => { s with printed := s.printed ++ [Char.ofNat s.current] }
  | .input, s =>
    match s.unread with
    | [] => s.set 0
    | c :: rest => { s.set (c.toNat % 256) with unread := rest }

end Store

/-! ## Ends -/

/-- How a structured program comes to an end. -/
inductive Ending where
  /-- It has done everything. -/
  | halted (s : Store)
  /-- It came to an unclosed `[` at `position` with a zero under the cursor. -/
  | stuck (position : Nat)

/-- A structured program comes to an end from a store; one that does not halt has no end. -/
inductive Structured.Ends : Structured → Store → Ending → Prop where
  | done {s : Store} : Ends done s (.halted s)
  | perform {i : Instruction} {rest : Structured} {s : Store} {e : Ending}
    (hrest : Ends rest (s.perform i) e) : Ends (perform i rest) s e
  | loopDone {body rest : Structured} {s : Store} {e : Ending} (hzero : s.current = 0)
    (hrest : Ends rest s e) : Ends (loop body rest) s e
  | loopAgain {body rest : Structured} {s s' : Store} {e : Ending} (hne : s.current ≠ 0)
    (hbody : Ends body s (.halted s')) (hagain : Ends (loop body rest) s' e) :
    Ends (loop body rest) s e
  | loopStuck {body rest : Structured} {s : Store} {p : Nat} (hne : s.current ≠ 0)
    (hbody : Ends body s (.stuck p)) : Ends (loop body rest) s (.stuck p)
  | unclosedPassed {p : Nat} {rest : Structured} {s : Store} {e : Ending} (hne : s.current ≠ 0)
    (hrest : Ends rest s e) : Ends (unclosed p rest) s e
  | unclosedStuck {p : Nat} {rest : Structured} {s : Store} (hzero : s.current = 0) :
    Ends (unclosed p rest) s (.stuck p)

end TapeBreeder
