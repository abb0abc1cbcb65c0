import TapeBreeder.Breeding.Crossover
import TapeBreeder.Breeding.Mutation
import TapeBreeder.Proofs.Brackets.Partner
import TapeBreeder.Proofs.Safety.Guarded

/-!
# Breeding under guard

Random programs, mutation and crossover once more, with every range, difference and access guarded.
All of them pass their guards. Of a search this asks for nothing but lawful draws and weights of
mutation whose total fits into 32 bits; all else is seen to by the operations themselves.

* `passes_randomProgram` — a loop is only begun where its body has a range to be drawn from.
* `delete_eq` — both ends of a pair of brackets can be removed, the second one first.
* `passes_mutate`, `passes_crossover` — programs of every length can be mutated and crossed.
-/

namespace TapeBreeder

namespace Guarded

variable {σ : Type} [RandomSource σ]

/-! ## Guarded operations -/

/-- A symbol of a set. -/
def randomSymbol (symbols : List Symbol) : Guarded σ Symbol := do
  let index ← below symbols.length
  item symbols index

/-- A loop around a body of so many symbols, none of them a bracket. -/
def randomLoop (size : Nat) : Guarded σ (List Symbol) := do
  let body ← repeatedly (randomSymbol Symbol.plain) size
  return .loopOpen :: body ++ [.loopClose]

/-- The `missing` symbols of a program that are still to be drawn. -/
def randomSymbols (missing : Nat) : Guarded σ (List Symbol) :=
  if missing = 0 then pure []
  else do
    let next ← randomSymbol Symbol.starters
    if next ≠ .loopOpen then
      let rest ← randomSymbols (missing - 1)
      return next :: rest
    else if missing < 4 then
      let next ← randomSymbol Symbol.plain
      let rest ← randomSymbols (missing - 1)
      return next :: rest
    else
      let largest ← sub missing 2
      let body ← below largest
      let loop ← randomLoop (body + 1)
      let rest ← randomSymbols (missing - (body + 3))
      return loop ++ rest
termination_by missing

/-- A random program of a given length. -/
def randomProgram (length : Nat) : Guarded σ Program := do
  let symbols ← randomSymbols length
  return ⟨symbols⟩

/-- So many random programs of one length. -/
def randomPopulation (count length : Nat) : Guarded σ (List Program) :=
  repeatedly (randomProgram length) count

/-- Draw a kind of edit by its weight. -/
def mutationKind (options : MutateOptions) : Guarded σ MutationKind := do
  if MutationKind.totalWeight options = 0 then
    return .none
  else
    let draw ← weight (MutationKind.totalWeight options)
    return .ofDraw options draw

/-- A loop that suits a program of a given length. -/
def suitableLoop (length : Nat) : Guarded σ (List Symbol) := do
  let body ← below (max (length / 2) 1)
  randomLoop (body + 1)

/-- What is written into a program of a given length: a loop or a symbol. -/
def freshCode (options : MutateOptions) (length : Nat) : Guarded σ (List Symbol) := do
  let loop ← plain (wantsLoop options)
  if loop then
    suitableLoop length
  else
    let symbol ← randomSymbol Symbol.plain
    return [symbol]

/-- Replace the symbol at a random place, unless it is a bracket. -/
def substitute (options : MutateOptions) (p : Program) : Guarded σ (List Symbol) := do
  let index ← below p.length
  let symbol ← item p.symbols index
  if symbol.isBracket then
    return p.symbols
  else
    let code ← freshCode options p.length
    let head ← upTo p.symbols index
    let tail ← behind p.symbols (index + 1)
    return head ++ code ++ tail

/-- Insert code at a random place. -/
def extend (options : MutateOptions) (p : Program) : Guarded σ (List Symbol) := do
  let index ← below (p.length + 1)
  let code ← freshCode options p.length
  let head ← upTo p.symbols index
  let tail ← behind p.symbols index
  return head ++ code ++ tail

/-- The symbols without the one at `index`, and without its partner if it has one. Of a pair, the
second bracket is removed first, and the first one from what is left then. -/
def delete (p : Program) (index : Nat) : Except Violation (List Symbol) :=
  match p.partner? index with
  | some partner => do
    let symbols ← remove p.symbols (max index partner)
    remove symbols (min index partner)
  | none => remove p.symbols index

/-- Delete the symbol at a random place, and its partner if it has one. -/
def shrink (p : Program) : Guarded σ (List Symbol) := do
  let index ← below p.length
  delete p index

/-- Apply an edit of some kind. -/
def edit (options : MutateOptions) (p : Program) : MutationKind → Guarded σ (List Symbol)
  | .inPlace => substitute options p
  | .addition => extend options p
  | .deletion => shrink p
  | .none => pure p.symbols

/-- A mutated copy of a program. -/
def mutate (options : MutateOptions) (p : Program) : Guarded σ Program := do
  if p.length ≤ 1 then
    let symbol ← randomSymbol Symbol.plain
    return ⟨p.symbols ++ [symbol]⟩
  else
    let kind ← mutationKind options
    let symbols ← edit options p kind
    if symbols.isEmpty then
      let symbol ← randomSymbol Symbol.plain
      return ⟨[symbol]⟩
    else
      return ⟨symbols⟩

/-- The children of two programs. -/
def crossover (a b : Program) : Guarded σ (Program × Program) := do
  if a.length = 1 ∨ b.length = 1 then
    return (a ++ b, b ++ a)
  else
    let point ← below (min a.length b.length + 1)
    let headA ← upTo a.symbols point
    let tailB ← behind b.symbols point
    let headB ← upTo b.symbols point
    let tailA ← behind a.symbols point
    return (⟨headA ++ tailB⟩, ⟨headB ++ tailA⟩)

/-! ## Kinds of edits -/

/-- A kind is drawn by weight only where some weight is positive. -/
theorem passes_mutationKind {options : MutateOptions}
    (h : MutationKind.totalWeight options < UInt32.size) :
    Passes (mutationKind options : Guarded σ MutationKind) (MutationKind.draw options) := by
  unfold mutationKind MutationKind.draw
  split
  · exact passes_pure _
  · next hzero =>
    refine (passes_weight (Nat.pos_of_ne_zero hzero) h).bind_any ?_
    intro draw
    exact passes_pure _

variable [LawfulSource σ]

/-! ## Random programs -/

/-- A symbol can be drawn from a set that is not empty, and is then found in it. -/
theorem passes_randomSymbol {symbols : List Symbol} (h : 0 < symbols.length) :
    Passes (randomSymbol symbols : Guarded σ Symbol) (TapeBreeder.randomSymbol symbols) := by
  refine (passes_below h).bind (surely_below h) ?_
  intro index hindex
  exact passes_of_ok (item_eq (by simp [hindex]))

theorem passes_randomSymbol_plain :
    Passes (randomSymbol Symbol.plain : Guarded σ Symbol)
      (TapeBreeder.randomSymbol Symbol.plain) :=
  passes_randomSymbol (by decide)

theorem passes_randomLoop (size : Nat) :
    Passes (randomLoop size : Guarded σ (List Symbol)) (TapeBreeder.randomLoop size) := by
  refine (passes_repeatedly passes_randomSymbol_plain size).bind_any ?_
  intro body
  exact passes_pure _

/-- Symbols pass however many are missing. The induction is strong, since a loop takes several of
them at once. -/
theorem passes_randomSymbols (missing : Nat) :
    Passes (randomSymbols missing : Guarded σ (List Symbol))
      (TapeBreeder.randomSymbols missing) := by
  induction missing using Nat.strongRecOn with
  | ind missing ih =>
    rw [randomSymbols, TapeBreeder.randomSymbols]
    split
    · exact passes_pure []
    · refine (passes_randomSymbol (by decide)).bind_any ?_
      intro next
      split
      · -- A symbol that begins no loop takes one of the missing places.
        refine (ih (missing - 1) (by omega)).bind_any ?_
        intro rest
        exact passes_pure _
      · split
        · -- There is no room for a loop, and another symbol is drawn instead.
          refine passes_randomSymbol_plain.bind_any ?_
          intro next
          refine (ih (missing - 1) (by omega)).bind_any ?_
          intro rest
          exact passes_pure _
        · -- At least four symbols are missing, so at least two are left for the body.
          refine Passes.of_ok (sub_eq (by omega)) ?_
          refine (passes_below (by omega)).bind_any ?_
          intro body
          refine (passes_randomLoop (body + 1)).bind_any ?_
          intro loop
          refine (ih (missing - (body + 3)) (by omega)).bind_any ?_
          intro rest
          exact passes_pure _

theorem passes_randomProgram (length : Nat) :
    Passes (randomProgram length : Guarded σ Program) (TapeBreeder.randomProgram length) := by
  refine (passes_randomSymbols length).bind_any ?_
  intro symbols
  exact passes_pure _

theorem passes_randomPopulation (count length : Nat) :
    Passes (randomPopulation count length : Guarded σ (List Program))
      (TapeBreeder.randomPopulation count length) :=
  passes_repeatedly (passes_randomProgram length) count

/-! ## Mutation -/

/-- The body of a loop is drawn from at least one size, also where the program is so short that half
its length is zero. -/
theorem passes_suitableLoop (length : Nat) :
    Passes (suitableLoop length : Guarded σ (List Symbol)) (TapeBreeder.suitableLoop length) := by
  refine (passes_below (by omega)).bind_any ?_
  intro body
  exact passes_randomLoop (body + 1)

/-- A loop or a symbol can be drawn for a program of any length. -/
theorem passes_freshCode (options : MutateOptions) (length : Nat) :
    Passes (freshCode options length : Guarded σ (List Symbol))
      (TapeBreeder.freshCode options length) := by
  refine (passes_plain _).bind_any ?_
  intro loop
  cases loop with
  | true => exact passes_suitableLoop length
  | false =>
    refine passes_randomSymbol_plain.bind_any ?_
    intro symbol
    exact passes_pure _

/-- In a program that is not empty, the place that is drawn holds a symbol, and the program can be
cut on both sides of it. -/
theorem passes_substitute (options : MutateOptions) {p : Program} (h : 0 < p.length) :
    Passes (substitute options p : Guarded σ (List Symbol)) (p.substitute options) := by
  refine (passes_below h).bind (surely_below h) ?_
  intro index hindex
  have hsymbol : p.symbols[index]? = some p.symbols[index] := List.getElem?_eq_getElem hindex
  refine Passes.of_ok (item_eq hsymbol) ?_
  -- Whether it is a bracket is asked of the symbol that the guard has found.
  rw [hsymbol, Option.any_some]
  split
  · exact passes_pure _
  · refine (passes_freshCode options p.length).bind_any ?_
    intro code
    refine Passes.of_ok (upTo_eq (Nat.le_of_lt hindex)) ?_
    refine Passes.of_ok (behind_eq hindex) ?_
    exact passes_pure _

/-- Code can be inserted at every place of a program, behind its last symbol included, so that an
empty one can be extended, too. -/
theorem passes_extend (options : MutateOptions) (p : Program) :
    Passes (extend options p : Guarded σ (List Symbol)) (p.extend options) := by
  have hrange : 0 < p.length + 1 := Nat.succ_pos _
  refine (passes_below hrange).bind (surely_below hrange) ?_
  intro index hindex
  have hindex : index ≤ p.symbols.length := Nat.le_of_lt_succ hindex
  refine (passes_freshCode options p.length).bind_any ?_
  intro code
  refine Passes.of_ok (upTo_eq hindex) ?_
  refine Passes.of_ok (behind_eq hindex) ?_
  exact passes_pure _

/-- The second bracket of a pair can be removed, and the first one is still there then. -/
theorem remove_pair_eq {symbols : List Symbol} {first second : Nat}
    (h : IsPair symbols first second) :
    (remove symbols second >>= fun symbols => remove symbols first) =
      .ok ((symbols.eraseIdx second).eraseIdx first) := by
  have hlt := h.lt
  have hsecond : second < symbols.length := by
    rcases h with ⟨xs, ys, zs, rfl, -, -, rfl⟩
    simp only [List.length_append, List.length_cons]
    omega
  -- The second bracket is gone, and the first one stood in front of it.
  have hfirst : first < (symbols.eraseIdx second).length := by
    rw [List.length_eraseIdx_of_lt hsecond]
    omega
  rw [remove_eq hsecond]
  exact remove_eq hfirst

/-- Whatever is at the place, it can be removed, and its partner with it. -/
theorem delete_eq {p : Program} {index : Nat} (h : index < p.length) :
    delete p index = .ok (p.delete index) := by
  unfold delete Program.delete
  cases hpartner : p.partner? index with
  | none => exact remove_eq h
  | some partner =>
    -- The place is either end of the pair.
    rcases isPair_of_partner? hpartner with hpair | hpair
    · have hle := Nat.le_of_lt hpair.lt
      simp only [Nat.max_eq_right hle, Nat.min_eq_left hle]
      exact remove_pair_eq hpair
    · have hle := Nat.le_of_lt hpair.lt
      simp only [Nat.max_eq_left hle, Nat.min_eq_right hle]
      exact remove_pair_eq hpair

/-- A program that is not empty has a symbol to delete. -/
theorem passes_shrink {p : Program} (h : 0 < p.length) :
    Passes (shrink p : Guarded σ (List Symbol)) p.shrink := by
  refine (passes_below h).bind (surely_below h) ?_
  intro index hindex
  exact passes_of_ok (delete_eq hindex)

/-- Every kind of edit passes on a program that is not empty. -/
theorem passes_edit (options : MutateOptions) {p : Program} (h : 0 < p.length)
    (kind : MutationKind) :
    Passes (edit options p kind : Guarded σ (List Symbol)) (p.edit options kind) := by
  cases kind with
  | inPlace => exact passes_substitute options h
  | addition => exact passes_extend options p
  | deletion => exact passes_shrink h
  | none => exact passes_pure p.symbols

/-- A program is mutated without violation, also one that is too short to be edited. -/
theorem passes_mutate {options : MutateOptions}
    (h : MutationKind.totalWeight options < UInt32.size) (p : Program) :
    Passes (mutate options p : Guarded σ Program) (p.mutate options) := by
  unfold mutate Program.mutate
  split
  · -- A short program grows by a symbol, and no kind of edit is drawn for it.
    refine passes_randomSymbol_plain.bind_any ?_
    intro symbol
    exact passes_pure _
  · -- Only programs of at least two symbols are edited, so there is a place to draw.
    next hlength =>
    have hpos : 0 < p.length := by omega
    refine (passes_mutationKind h).bind_any ?_
    intro kind
    refine (passes_edit options hpos kind).bind_any ?_
    intro symbols
    split
    · refine passes_randomSymbol_plain.bind_any ?_
      intro symbol
      exact passes_pure _
    · exact passes_pure _

/-! ## Crossover -/

/-- Two programs can be crossed whatever their lengths are. Programs of a single symbol are not cut
at all. -/
theorem passes_crossover (a b : Program) :
    Passes (crossover a b : Guarded σ (Program × Program)) (a.crossover b) := by
  unfold crossover Program.crossover
  split
  · exact passes_pure _
  · have hrange : 0 < min a.length b.length + 1 := Nat.succ_pos _
    refine (passes_below hrange).bind (surely_below hrange) ?_
    intro point hpoint
    have hmin : point ≤ min a.symbols.length b.symbols.length := Nat.le_of_lt_succ hpoint
    rcases Nat.le_min.mp hmin with ⟨ha, hb⟩
    -- The point is no further than the end of the shorter program, so all four cuts are within
    -- bounds.
    refine Passes.of_ok (upTo_eq ha) ?_
    refine Passes.of_ok (behind_eq hb) ?_
    refine Passes.of_ok (upTo_eq hb) ?_
    refine Passes.of_ok (behind_eq ha) ?_
    exact passes_pure _

end Guarded

end TapeBreeder
