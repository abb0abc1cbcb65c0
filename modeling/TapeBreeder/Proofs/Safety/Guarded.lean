import TapeBreeder.Proofs.Random.Draws

/-!
# Draws under guard

The operations of a search are total: a draw from an empty range, a difference below zero and an
access outside of a list have some result or other. Here the same operations are guarded, and a
`Violation` stops whatever is drawn. Draws that pass their guards draw just what they draw without
them, so a search that passes all of its guards never relies on such a result.

* `Violation` — what must not happen; `sub`, `item`, `remove`, `upTo`, `behind` — operations that
  it can happen to.
* `Guarded` — draws that stop at a violation; `Guarded.below`, `Guarded.place`, `Guarded.weight` —
  the draws that are given a range.
* `Passes` — whether guarded draws meet no violation and draw the same as plain ones. It is put
  together along the draws (`passes_pure`, `Passes.of_ok`, `Passes.bind`), with `Surely` for what is
  known of earlier draws.
-/

namespace TapeBreeder

/-! ## Guarded operations -/

/-- Something that must not happen in a search. -/
inductive Violation where
  /-- A draw from an empty range. -/
  | emptyRange
  /-- Weights whose total does not fit into 32 bits. -/
  | heavyWeights
  /-- A difference below zero. -/
  | underflow
  /-- An access outside of a list. -/
  | outOfBounds
deriving DecidableEq, Repr

namespace Guarded

variable {α : Type}

/-- A difference that is not below zero. -/
def sub (m n : Nat) : Except Violation Nat :=
  if n ≤ m then .ok (m - n) else .error .underflow

/-- The item at a place of a list. -/
def item (items : List α) (i : Nat) : Except Violation α :=
  match items[i]? with
  | some a => .ok a
  | none => .error .outOfBounds

/-- A list without the item at a place. -/
def remove (items : List α) (i : Nat) : Except Violation (List α) :=
  if i < items.length then .ok (items.eraseIdx i) else .error .outOfBounds

/-- The items before a place. -/
def upTo (items : List α) (i : Nat) : Except Violation (List α) :=
  if i ≤ items.length then .ok (items.take i) else .error .outOfBounds

/-- The items from a place on. -/
def behind (items : List α) (i : Nat) : Except Violation (List α) :=
  if i ≤ items.length then .ok (items.drop i) else .error .outOfBounds

/-- An array with the items at two places exchanged. -/
def swap (items : Array α) (i j : Nat) : Except Violation (Array α) :=
  if i < items.size ∧ j < items.size then .ok (items.swapIfInBounds i j) else .error .outOfBounds

/-- A difference passes its guard where it is not below zero. -/
theorem sub_eq {m n : Nat} (h : n ≤ m) : sub m n = .ok (m - n) :=
  if_pos h

theorem item_eq {items : List α} {i : Nat} {a : α} (h : items[i]? = some a) :
    item items i = .ok a := by
  rw [item, h]

/-- A removal passes its guard within the list. -/
theorem remove_eq {items : List α} {i : Nat} (h : i < items.length) :
    remove items i = .ok (items.eraseIdx i) :=
  if_pos h

/-- A cut passes its guard up to the end of the list, behind its last item included. -/
theorem upTo_eq {items : List α} {i : Nat} (h : i ≤ items.length) :
    upTo items i = .ok (items.take i) :=
  if_pos h

theorem behind_eq {items : List α} {i : Nat} (h : i ≤ items.length) :
    behind items i = .ok (items.drop i) :=
  if_pos h

/-- An exchange passes its guard if both places are within the array. -/
theorem swap_eq {items : Array α} {i j : Nat} (hi : i < items.size) (hj : j < items.size) :
    swap items i j = .ok (items.swapIfInBounds i j) :=
  if_pos ⟨hi, hj⟩

end Guarded

/-! ## Guarded draws -/

/-- Draws from a source that stop at the first violation. -/
abbrev Guarded (σ : Type) :=
  StateT σ (Except Violation)

namespace Guarded

variable {σ α β : Type}

/-- Draws that nothing can go wrong with. -/
def plain (draws : StateM σ α) : Guarded σ α :=
  fun source => .ok (draws.run source)

/-- Whether guarded draws meet no violation and draw what the plain ones draw, whatever the source
is. -/
def Passes (guarded : Guarded σ α) (draws : StateM σ α) : Prop :=
  ∀ source, guarded.run source = .ok (draws.run source)

/-- Nothing drawn meets no violation. -/
theorem passes_pure (a : α) : Passes (pure a : Guarded σ α) (pure a) := by
  intro _
  rfl

/-- Draws that are not guarded pass as they are. -/
theorem passes_plain (draws : StateM σ α) : Passes (plain draws) draws := by
  intro _
  rfl

/-- An operation that its guard lets through leaves the source alone. -/
theorem passes_of_ok {operation : Except Violation α} {a : α} (h : operation = .ok a) :
    Passes (liftM operation : Guarded σ α) (pure a) := by
  intro _
  rw [h]
  rfl

/-- A guard that lets its operation through can be left out in front of draws. -/
theorem Passes.of_ok {operation : Except Violation α} {a : α} {next : α → Guarded σ β}
    {draws : StateM σ β} (h : operation = .ok a) (hnext : Passes (next a) draws) :
    Passes (liftM operation >>= next) draws := by
  intro source
  rw [h]
  exact hnext source

/-- What comes after some draws only has to pass for what can be drawn. -/
theorem Passes.bind {P : α → Prop} {guarded : Guarded σ α} {draws : StateM σ α}
    {next : α → Guarded σ β} {rest : α → StateM σ β} (h : Passes guarded draws)
    (hP : Surely draws P) (hnext : ∀ a, P a → Passes (next a) (rest a)) :
    Passes (guarded >>= next) (draws >>= rest) := by
  intro source
  -- The first draws pass, so both sides go on with the same result from the same source.
  rw [StateT.run_bind, h source]
  exact hnext (draws.run source).1 (hP source) (draws.run source).2

/-- Draws that pass whatever comes before them need to know nothing of it. -/
theorem Passes.bind_any {guarded : Guarded σ α} {draws : StateM σ α} {next : α → Guarded σ β}
    {rest : α → StateM σ β} (h : Passes guarded draws)
    (hnext : ∀ a, Passes (next a) (rest a)) : Passes (guarded >>= next) (draws >>= rest) :=
  h.bind (surely_any draws) fun a _ => hnext a

/-! ## Draws from ranges -/

section

variable [RandomSource σ]

/-- Draw from a range that is not empty. -/
def below (n : Nat) : Guarded σ Nat :=
  fun source => if 0 < n then .ok ((RandomSource.below n).run source) else .error .emptyRange

/-- Draw the place of an exchange from a range that is not empty. -/
def place (n : Nat) : Guarded σ Nat :=
  fun source => if 0 < n then .ok ((RandomSource.place n).run source) else .error .emptyRange

/-- Draw below a total of weights that is not zero and fits into 32 bits. -/
def weight (total : Nat) : Guarded σ Nat :=
  fun source =>
    if total = 0 then .error .emptyRange
    else if UInt32.size ≤ total then .error .heavyWeights
    else .ok ((RandomSource.weight total).run source)

variable {n : Nat}

/-- A draw passes its guard if there is something below the bound. -/
theorem passes_below (h : 0 < n) : Passes (below n : Guarded σ Nat) (RandomSource.below n) := by
  intro _
  exact if_pos h

theorem passes_place (h : 0 < n) : Passes (place n : Guarded σ Nat) (RandomSource.place n) := by
  intro _
  exact if_pos h

/-- A draw by weight passes if the total is positive and fits into 32 bits. -/
theorem passes_weight (hpos : 0 < n) (hfits : n < UInt32.size) :
    Passes (weight n : Guarded σ Nat) (RandomSource.weight n) := by
  intro _
  exact (if_neg (Nat.ne_of_gt hpos)).trans (if_neg (Nat.not_le_of_lt hfits))

end

/-! ## Many draws -/

/-- The results of doing the same again and again. -/
def repeatedly (draw : Guarded σ α) : Nat → Guarded σ (List α)
  | 0 => pure []
  | n + 1 => do
    let first ← draw
    let rest ← repeatedly draw n
    return first :: rest

/-- Many draws pass if one of them does. -/
theorem passes_repeatedly {guarded : Guarded σ α} {draws : StateM σ α} (h : Passes guarded draws)
    (n : Nat) : Passes (repeatedly guarded n) (TapeBreeder.repeatedly draws n) := by
  induction n with
  | zero => exact passes_pure []
  | succ n ih =>
    refine h.bind_any ?_
    intro first
    refine ih.bind_any ?_
    intro rest
    exact passes_pure (first :: rest)

section

variable [RandomSource σ]

/-- Exchange each of the items from `last` down to the second one with one that stands no later
than itself. -/
def shuffleDown : (last : Nat) → Array α → Guarded σ (Array α)
  | 0, items => pure items
  | last + 1, items => do
    let other ← place (last + 2)
    let items ← swap items (last + 1) other
    shuffleDown last items

/-- The items in a random order. -/
def shuffle (items : List α) : Guarded σ (List α) := do
  let shuffled ← shuffleDown (items.length - 1) items.toArray
  return shuffled.toList

variable [LawfulSource σ]

/-- Each exchange is drawn from a range that is not empty and is made within the array. Only a
lawful source keeps the place that is drawn within its range. -/
theorem passes_shuffleDown {last : Nat} {items : Array α} (h : last = 0 ∨ last < items.size) :
    Passes (shuffleDown last items : Guarded σ (Array α)) (TapeBreeder.shuffleDown last items) := by
  induction last generalizing items with
  | zero => exact passes_pure items
  | succ last ih =>
    have hlast : last + 1 < items.size := h.resolve_left (Nat.succ_ne_zero last)
    have hrange : 0 < last + 2 := by omega
    -- Both places of the exchange are below the size of the array: `other` is at most `last + 1`.
    refine (passes_place hrange).bind (surely_place hrange) ?_
    intro other hother
    refine Passes.of_ok (swap_eq hlast (by omega)) ?_
    -- An exchange keeps the size, so the next item is still within the array.
    apply ih
    right
    rw [Array.size_swapIfInBounds]
    omega

/-- Every list can be brought into a random order, the empty one included, for which no place is
drawn. -/
theorem passes_shuffle (items : List α) :
    Passes (shuffle items : Guarded σ (List α)) (TapeBreeder.shuffle items) := by
  have hlast : items.length - 1 = 0 ∨ items.length - 1 < items.toArray.size := by
    rw [List.size_toArray]
    omega
  refine (passes_shuffleDown hlast).bind_any ?_
  intro shuffled
  exact passes_pure shuffled.toList

end

end Guarded

end TapeBreeder
