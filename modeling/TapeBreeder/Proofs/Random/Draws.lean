import TapeBreeder.Random.Source

/-!
# Whatever is drawn

A statement about random draws is one about every state of the source that they may be made from.
`Surely draws P` says that `P` holds of whatever is drawn, and it is put together along the draws:

* `surely_pure`, `Surely.bind`, `Surely.mono` — nothing drawn, draws after draws, weakening.
* `surely_repeatedly` — many draws of one kind.
* `surely_below`, `surely_place`, `surely_weight` — draws below a bound, from a lawful source.
* `surely_shuffle` — a random order is a permutation, whatever places are drawn for it.
-/

namespace TapeBreeder

variable {σ α β : Type}

/-- Whether a property holds of whatever is drawn. -/
def Surely (draws : StateM σ α) (P : α → Prop) : Prop :=
  ∀ source, P (draws.run source).1

theorem surely_pure {P : α → Prop} {a : α} (h : P a) : Surely (pure a : StateM σ α) P := by
  intro _
  exact h

/-- Nothing has to be known of draws to go on from them. -/
theorem surely_any (draws : StateM σ α) : Surely draws fun _ => True := by
  intro _
  trivial

/-- Draws that follow others have to be looked at only for what the others can come to. -/
theorem Surely.bind {P : α → Prop} {Q : β → Prop} {draws : StateM σ α} {f : α → StateM σ β}
    (h : Surely draws P) (hf : ∀ a, P a → Surely (f a) Q) : Surely (draws >>= f) Q := by
  intro source
  -- What comes after is drawn from the state that the first draws leave behind.
  exact hf (draws.run source).1 (h source) (draws.run source).2

theorem Surely.mono {P Q : α → Prop} {draws : StateM σ α} (h : Surely draws P)
    (hPQ : ∀ a, P a → Q a) : Surely draws Q := by
  intro source
  exact hPQ _ (h source)

/-! ## Many draws -/

theorem surely_repeatedly {P : α → Prop} {draws : StateM σ α} (h : Surely draws P) (n : Nat) :
    Surely (repeatedly draws n) fun results => results.length = n ∧ ∀ a ∈ results, P a := by
  induction n with
  | zero => exact surely_pure ⟨rfl, by simp⟩
  | succ n ih =>
    refine h.bind ?_
    intro a ha
    -- The first result is `a`, and `ih` is about the `n` others.
    refine ih.bind ?_
    rintro results ⟨hlength, hall⟩
    refine surely_pure ?_
    constructor
    · rw [List.length_cons, hlength]
    · intro b hb
      rcases List.mem_cons.mp hb with rfl | hb
      · exact ha
      · exact hall b hb

/-! ## Draws from a range -/

variable [RandomSource σ]

/-- From a lawful source, a draw below a bound lies below it. This is where the bound has to be
positive, and with it every set of symbols and every place that is drawn from. -/
theorem surely_below [LawfulSource σ] {n : Nat} (h : 0 < n) :
    Surely (RandomSource.below n : StateM σ Nat) (· < n) := by
  intro source
  exact LawfulSource.below_lt n source h

theorem surely_place [LawfulSource σ] {n : Nat} (h : 0 < n) :
    Surely (RandomSource.place n : StateM σ Nat) (· < n) := by
  intro source
  exact LawfulSource.place_lt n source h

/-- A weight is drawn in 32 bits, so the total of the weights has to fit. -/
theorem surely_weight [LawfulSource σ] {n : Nat} (h : 0 < n) (hsize : n < UInt32.size) :
    Surely (RandomSource.weight n : StateM σ Nat) (· < n) := by
  intro source
  exact LawfulSource.weight_lt n source h hsize

/-! ## Random orders -/

/-- An exchange keeps the items, also at places outside of the array, where nothing is exchanged. -/
theorem perm_swapIfInBounds (items : Array α) (i j : Nat) :
    (items.swapIfInBounds i j).Perm items := by
  unfold Array.swapIfInBounds
  split
  · split
    · exact Array.swap_perm _ _
    · exact .refl items
  · exact .refl items

/-- Whatever places are drawn, they only ever exchange items. The source need not be lawful. -/
theorem surely_shuffleDown (last : Nat) (items : Array α) :
    Surely (shuffleDown last items : StateM σ (Array α)) fun shuffled => shuffled.Perm items := by
  induction last generalizing items with
  | zero => exact surely_pure (.refl items)
  | succ last ih =>
    -- Nothing is asked of the place that is drawn.
    refine (surely_any _).bind ?_
    intro place _
    have hswap := perm_swapIfInBounds items (last + 1) place
    refine (ih _).mono ?_
    intro shuffled h
    exact h.trans hswap

theorem surely_shuffle (items : List α) :
    Surely (shuffle items : StateM σ (List α)) fun shuffled => shuffled.Perm items := by
  refine (surely_shuffleDown _ _).bind ?_
  intro shuffled h
  exact surely_pure h.toList

end TapeBreeder
