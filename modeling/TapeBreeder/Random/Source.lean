/-!
# Random draws

Everything random draws from a `RandomSource`, a state with a few kinds of draws. Whatever
holds for all lawful sources holds for all sequences of draws within the requested ranges.

* `RandomSource` — the kinds of draws; `SeededSource` — sources that begin with a seed.
* `LawfulSource` — sources whose draws lie in the requested ranges.
* `repeatedly`, `shuffle` — many draws of one kind, and a random order.
-/

namespace TapeBreeder

/-- The common denominator of the fractions that are drawn, `2 ^ 53`. -/
def fractionSize : Nat :=
  9007199254740992

/-- A source of random draws with states in `σ`. -/
class RandomSource (σ : Type) where
  /-- A natural number below the argument, uniformly. -/
  below : Nat → StateM σ Nat
  /-- A place below the argument, uniformly, for one exchange of a shuffle. -/
  place : Nat → StateM σ Nat
  /-- A natural number below the argument, the total of some weights. -/
  weight : Nat → StateM σ Nat
  /-- A number below one of the form `k / fractionSize`, by its numerator. -/
  fraction : StateM σ Nat
  /-- A seed for another source. -/
  seed : StateM σ UInt64

/-- A source that begins with a seed. -/
class SeededSource (σ : Type) extends RandomSource σ where
  ofSeed : UInt64 → σ

/-- Draws from a range that is not empty lie in it. -/
class LawfulSource (σ : Type) [RandomSource σ] : Prop where
  below_lt : ∀ (n : Nat) (s : σ), 0 < n → ((RandomSource.below n).run s).1 < n
  place_lt : ∀ (n : Nat) (s : σ), 0 < n → ((RandomSource.place n).run s).1 < n
  weight_lt : ∀ (n : Nat) (s : σ), 0 < n → n < UInt32.size → ((RandomSource.weight n).run s).1 < n
  fraction_lt : ∀ s : σ, (RandomSource.fraction.run s).1 < fractionSize

variable {σ : Type} {α : Type}

/-- The results of doing the same again and again. -/
def repeatedly (draw : StateM σ α) : Nat → StateM σ (List α)
  | 0 => pure []
  | n + 1 => do
    let first ← draw
    let rest ← repeatedly draw n
    return first :: rest

variable [RandomSource σ]

/-- Exchange each of the items from `last` down to the second one with one that stands no later
than itself. -/
def shuffleDown : (last : Nat) → Array α → StateM σ (Array α)
  | 0, items => pure items
  | last + 1, items => do
    let place ← RandomSource.place (last + 2)
    shuffleDown last (items.swapIfInBounds (last + 1) place)

/-- The items in a random order. -/
def shuffle (items : List α) : StateM σ (List α) := do
  let shuffled ← shuffleDown (items.length - 1) items.toArray
  return shuffled.toList

end TapeBreeder
