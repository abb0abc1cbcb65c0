import TapeBreeder.Program.Brackets
import TapeBreeder.Tape

/-!
# The tape machine

A program is loaded into `Code`, symbols with a jump table, and runs on a `Machine`: a position
in the code, a tape, the input that is still to be read, and the cells printed so far. A run has
a budget of symbols, because many programs never halt; the budget is looked at before each
symbol, so a run within it ends as a run without one would.

* `Code.step` — the effect of one symbol.
* `Code.run` — a run within a budget.
* `Program.run` — load and run; a `]` that closes nothing keeps a program from running at all.
-/

namespace TapeBreeder

/-! ## Code -/

/-- A program that is ready to run. -/
structure Code where
  symbols : Array Symbol
  jumps : JumpTable

/-- The code of a program, unless some `]` closes nothing. -/
def Program.load (p : Program) : Except BracketError Code :=
  (JumpTable.build p.symbols).map (Code.mk p.symbols.toArray)

/-! ## Machines -/

/-- The character with the code point of a cell. -/
def charOfCell (cell : UInt8) : Char :=
  Char.ofNat cell.toNat

/-- The cell that holds a character: its code point modulo 256. -/
def cellOfChar (c : Char) : UInt8 :=
  UInt8.ofNat c.toNat

/-- A machine between two symbols; the last printed cell comes first. -/
structure Machine where
  position : Nat
  tape : Tape
  pending : List Char
  printed : List UInt8
deriving DecidableEq, Repr

namespace Machine

/-- A machine at the beginning of its code, on a blank tape. -/
def start (input : String) : Machine :=
  ⟨0, .blank, input.toList, []⟩

/-- The text that has been printed. -/
def text (m : Machine) : String :=
  String.ofList (m.printed.reverse.map charOfCell)

end Machine

/-! ## Steps -/

namespace Code

/-- The target of a bracket, or the fault that it has none. -/
def target (code : Code) (position : Nat) (fault : Nat → BracketError) :
    Except BracketError Nat :=
  match code.jumps.jump? position with
  | some partner => .ok partner
  | none => .error (fault position)

/-- The effect of one symbol. Jumps land behind the partner of the bracket. -/
def step (code : Code) (symbol : Symbol) : Machine → Except BracketError Machine
  | ⟨position, tape, pending, printed⟩ =>
    match symbol with
    | .right => .ok ⟨position + 1, tape.moveRight, pending, printed⟩
    | .left => .ok ⟨position + 1, tape.moveLeft, pending, printed⟩
    | .increment => .ok ⟨position + 1, tape.write (tape.read + 1), pending, printed⟩
    | .decrement => .ok ⟨position + 1, tape.write (tape.read - 1), pending, printed⟩
    | .output => .ok ⟨position + 1, tape, pending, tape.read :: printed⟩
    | .input =>
      match pending with
      | [] => .ok ⟨position + 1, tape.write 0, [], printed⟩
      | c :: rest => .ok ⟨position + 1, tape.write (cellOfChar c), rest, printed⟩
    | .loopOpen =>
      if tape.read = 0 then
        match code.target position .unmatchedOpen with
        | .ok partner => .ok ⟨partner + 1, tape, pending, printed⟩
        | .error fault => .error fault
      else .ok ⟨position + 1, tape, pending, printed⟩
    | .loopClose =>
      if tape.read ≠ 0 then
        match code.target position .unmatchedClose with
        | .ok partner => .ok ⟨partner + 1, tape, pending, printed⟩
        | .error fault => .error fault
      else .ok ⟨position + 1, tape, pending, printed⟩

end Code

/-! ## Runs -/

/-- How a run within a budget ends. -/
inductive Outcome where
  /-- It reached the end of the code, having printed `text`. -/
  | halted (text : String)
  /-- It met a bracket that it could not follow. -/
  | failed (fault : BracketError)
  /-- It had symbols left to execute, but no budget. -/
  | outOfBudget
deriving DecidableEq, Repr

/-- The end of a run, and the budget that was left. -/
structure Run where
  outcome : Outcome
  unspent : Nat
deriving DecidableEq, Repr

/-- Run a machine for at most `budget` symbols. -/
def Code.run (code : Code) (budget : Nat) (m : Machine) : Run :=
  match code.symbols[m.position]? with
  | none => ⟨.halted m.text, budget⟩
  | some symbol =>
    match budget with
    | 0 => ⟨.outOfBudget, 0⟩
    | budget + 1 =>
      match code.step symbol m with
      | .error fault => ⟨.failed fault, budget⟩
      | .ok m => code.run budget m

/-- Run a program on an input for at most `budget` symbols. -/
def Program.run (p : Program) (input : String) (budget : Nat) : Run :=
  match p.load with
  | .error fault => ⟨.failed fault, budget⟩
  | .ok code => code.run budget (.start input)

end TapeBreeder
