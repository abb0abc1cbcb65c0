import TapeBreeder.Program

/-!
# Bracket structure

Three readings of the brackets of a program, for three uses.

* `Program.isBalanced` — whether every bracket has a partner, by counting depth.
* `Program.partner?` — the partner of one bracket, by scanning from it: forwards from `[`,
  backwards from `]`, until the depth is back at zero.
* `JumpTable.build` — the partners of all brackets at once, by one pass with a stack of open
  loops. It fails at the first `]` that closes nothing; a `[` that is never closed is let
  through and has no target.
-/

namespace TapeBreeder

/-! ## Faults -/

/-- What can be wrong with the brackets of a program, and where. -/
inductive BracketError where
  /-- A `]` closes no loop. -/
  | unmatchedClose (position : Nat)
  /-- A run reached a `[` that no `]` closes and had to skip it. -/
  | unmatchedOpen (position : Nat)
deriving DecidableEq, Repr

/-- The wording of a bracket fault. -/
def BracketError.message : BracketError → String
  | unmatchedClose position => s!"Loop close without loop open at {position}"
  | unmatchedOpen position => s!"Loop open without loop close reached at {position}"

namespace Program

/-! ## Balance -/

/-- The depth after reading `symbols` from depth `depth`, unless some `]` closes nothing. -/
def depthAfter? (depth : Nat) : List Symbol → Option Nat
  | [] => some depth
  | .loopOpen :: rest => depthAfter? (depth + 1) rest
  | .loopClose :: rest => if depth = 0 then none else depthAfter? (depth - 1) rest
  | _ :: rest => depthAfter? depth rest

/-- Whether every `]` closes an earlier `[` and every `[` is closed. -/
def isBalanced (p : Program) : Bool :=
  depthAfter? 0 p.symbols == some 0

/-! ## One bracket's partner -/

/-- The offset at which the depth of `inward` over `outward` brackets returns to zero. The
first symbol is the bracket whose partner is sought. -/
def returnOffset? (inward outward : Symbol) (depth : Nat) : List Symbol → Option Nat
  | [] => none
  | s :: rest =>
    if s = inward then
      (returnOffset? inward outward (depth + 1) rest).map (· + 1)
    else if s = outward then
      if depth - 1 = 0 then some 0
      else (returnOffset? inward outward (depth - 1) rest).map (· + 1)
    else
      (returnOffset? inward outward depth rest).map (· + 1)

/-- The position of the bracket that matches the one at `index`, if there is a bracket at
`index` and it has a partner. -/
def partner? (p : Program) (index : Nat) : Option Nat :=
  match p.symbols[index]? with
  | some .loopOpen =>
    (returnOffset? .loopOpen .loopClose 0 (p.symbols.drop index)).map (index + ·)
  | some .loopClose =>
    (returnOffset? .loopClose .loopOpen 0 (p.symbols.take (index + 1)).reverse).map (index - ·)
  | _ => none

end Program

/-! ## All partners at once -/

/-- The partner of every bracket, by position. Positions that hold no bracket, and those of
`[`s that are never closed, have no target. -/
structure JumpTable where
  targets : Array (Option Nat)
deriving DecidableEq, Repr

namespace JumpTable

/-- One pass over the symbols from `position` on, with the positions of the open loops, the
innermost first. -/
def fill : List Symbol → Nat → List Nat → Array (Option Nat) →
    Except BracketError (Array (Option Nat))
  | [], _, _, targets => .ok targets
  | .loopOpen :: rest, position, opened, targets =>
    fill rest (position + 1) (position :: opened) targets
  | .loopClose :: _, position, [], _ => .error (.unmatchedClose position)
  | .loopClose :: rest, position, start :: opened, targets =>
    fill rest (position + 1) opened
      ((targets.setIfInBounds start (some position)).setIfInBounds position (some start))
  | _ :: rest, position, opened, targets => fill rest (position + 1) opened targets

/-- The jump table of a symbol sequence, unless some `]` closes nothing. -/
def build (symbols : List Symbol) : Except BracketError JumpTable :=
  (fill symbols 0 [] (Array.replicate symbols.length none)).map JumpTable.mk

/-- The partner of the bracket at `position`. -/
def jump? (table : JumpTable) (position : Nat) : Option Nat :=
  (table.targets[position]?).join

end JumpTable

end TapeBreeder
