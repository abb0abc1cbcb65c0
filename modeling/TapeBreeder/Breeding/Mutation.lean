import TapeBreeder.Breeding.Generation
import TapeBreeder.Config
import TapeBreeder.Program.Brackets

/-!
# Mutation

A mutation draws one of four kinds of edits by their weights and applies it at a random place.
Edits respect the brackets: a substitution leaves brackets alone, what is written is a symbol
other than a bracket or a whole loop, and a bracket with a partner is only deleted together with
it. Programs of fewer than two symbols grow by one symbol instead, and a program that has become
empty is replaced by one symbol.

* `MutationKind.draw` — the kind of the next edit.
* `Program.mutate` — the mutation of a program.
-/

namespace TapeBreeder

variable {σ : Type} [RandomSource σ]

/-! ## Kinds -/

/-- The kinds of edits. -/
inductive MutationKind where
  /-- Replace a symbol. -/
  | inPlace
  /-- Insert a symbol. -/
  | addition
  /-- Delete a symbol, or a pair of brackets. -/
  | deletion
  /-- Change nothing. -/
  | none
deriving DecidableEq, Repr

namespace MutationKind

/-- The total of the weights. -/
def totalWeight (options : MutateOptions) : Nat :=
  options.inPlace.toNat + options.addition.toNat + options.deletion.toNat + options.none.toNat

/-- The kind whose share of the total weight holds `draw`. -/
def ofDraw (options : MutateOptions) (draw : Nat) : MutationKind :=
  if draw < options.inPlace.toNat then inPlace
  else if draw < options.inPlace.toNat + options.addition.toNat then addition
  else if draw < options.inPlace.toNat + options.addition.toNat + options.deletion.toNat then
    deletion
  else none

/-- Draw a kind by its weight; without any weight nothing is drawn and nothing changes. -/
def draw (options : MutateOptions) : StateM σ MutationKind := do
  if totalWeight options = 0 then
    return none
  else
    let draw ← RandomSource.weight (totalWeight options)
    return ofDraw options draw

end MutationKind

/-! ## Edits -/

/-- Whether a loop is written instead of a symbol. -/
def wantsLoop (options : MutateOptions) : StateM σ Bool := do
  let fraction ← RandomSource.fraction
  return Binary64.ofFraction fraction < options.loopProbability

/-- A loop that suits a program of a given length: its body has at most half that many symbols,
and at least one. -/
def suitableLoop (length : Nat) : StateM σ (List Symbol) := do
  let body ← RandomSource.below (max (length / 2) 1)
  randomLoop (body + 1)

/-- What is written into a program of a given length: a loop or a symbol. -/
def freshCode (options : MutateOptions) (length : Nat) : StateM σ (List Symbol) := do
  if ← wantsLoop options then
    suitableLoop length
  else
    let symbol ← randomSymbol Symbol.plain
    return [symbol]

/-- Replace the symbol at `index` by some code. -/
def replaceAt (symbols : List Symbol) (index : Nat) (code : List Symbol) : List Symbol :=
  symbols.take index ++ code ++ symbols.drop (index + 1)

/-- Insert some code before the symbol at `index`. -/
def insertAt (symbols : List Symbol) (index : Nat) (code : List Symbol) : List Symbol :=
  symbols.take index ++ code ++ symbols.drop index

namespace Program

/-- Replace the symbol at a random place, unless it is a bracket. -/
def substitute (options : MutateOptions) (p : Program) : StateM σ (List Symbol) := do
  let index ← RandomSource.below p.length
  if (p.symbols[index]?).any Symbol.isBracket then
    return p.symbols
  else
    let code ← freshCode options p.length
    return replaceAt p.symbols index code

/-- Insert code at a random place. -/
def extend (options : MutateOptions) (p : Program) : StateM σ (List Symbol) := do
  let index ← RandomSource.below (p.length + 1)
  let code ← freshCode options p.length
  return insertAt p.symbols index code

/-- The symbols without the one at `index`, and without its partner if it has one. -/
def delete (p : Program) (index : Nat) : List Symbol :=
  match p.partner? index with
  | some partner => (p.symbols.eraseIdx (max index partner)).eraseIdx (min index partner)
  | none => p.symbols.eraseIdx index

/-- Delete the symbol at a random place, and its partner if it has one. -/
def shrink (p : Program) : StateM σ (List Symbol) := do
  let index ← RandomSource.below p.length
  return p.delete index

/-- Apply an edit of some kind. -/
def edit (options : MutateOptions) (p : Program) : MutationKind → StateM σ (List Symbol)
  | .inPlace => p.substitute options
  | .addition => p.extend options
  | .deletion => p.shrink
  | .none => pure p.symbols

/-- A mutated copy of a program. -/
def mutate (options : MutateOptions) (p : Program) : StateM σ Program := do
  if p.length ≤ 1 then
    let symbol ← randomSymbol Symbol.plain
    return ⟨p.symbols ++ [symbol]⟩
  else
    let kind ← MutationKind.draw options
    let symbols ← p.edit options kind
    if symbols.isEmpty then
      let symbol ← randomSymbol Symbol.plain
      return ⟨[symbol]⟩
    else
      return ⟨symbols⟩

end Program

end TapeBreeder
