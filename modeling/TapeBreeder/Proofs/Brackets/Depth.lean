import Mathlib.Tactic.Common
import TapeBreeder.Program.Brackets

/-!
# Depth and balance

The depth of a row of symbols is what a single counter sees of its brackets. Everything that is
said about brackets elsewhere is said through it:

* `depthAfter?_append` — depth along a concatenation.
* `Balanced`, `balanced_iff_depthAfter?` — the grammar of balanced rows, and its counter.
* `Program.isLoadable`, `isLoadable_iff` — the jump table can be built exactly when the depth
  never falls below zero, whatever it is at the end.
-/

namespace TapeBreeder

open Program (depthAfter?)

/-! ## Depth -/

namespace Program

theorem depthAfter?_plain {s : Symbol} (hs : s.isBracket = false) (d : Nat)
    (rest : List Symbol) : depthAfter? d (s :: rest) = depthAfter? d rest := by
  cases s with
  | loopOpen => cases hs
  | loopClose => cases hs
  | _ => rfl

theorem depthAfter?_open (d : Nat) (rest : List Symbol) :
    depthAfter? d (.loopOpen :: rest) = depthAfter? (d + 1) rest :=
  rfl

theorem depthAfter?_close_zero (rest : List Symbol) :
    depthAfter? 0 (.loopClose :: rest) = none :=
  rfl

theorem depthAfter?_close_succ (d : Nat) (rest : List Symbol) :
    depthAfter? (d + 1) (.loopClose :: rest) = depthAfter? d rest :=
  rfl

/-- A symbol is a bracket of either kind, or neither. -/
theorem symbol_cases (s : Symbol) :
    s = .loopOpen ∨ s = .loopClose ∨ s.isBracket = false := by
  cases s <;> simp [Symbol.isBracket]

/-- The second row is read from the depth that the first one leaves, if there is any. -/
theorem depthAfter?_append (d : Nat) (xs ys : List Symbol) :
    depthAfter? d (xs ++ ys) = (depthAfter? d xs).bind fun e => depthAfter? e ys := by
  induction xs generalizing d with
  | nil => rfl
  | cons s xs ih =>
    rw [List.cons_append]
    rcases symbol_cases s with rfl | rfl | hs
    · exact ih (d + 1)
    · cases d with
      | zero => rfl
      | succ d => exact ih d
    · rw [depthAfter?_plain hs, depthAfter?_plain hs]
      exact ih d

/-- If the depth comes down to zero from above, it does so at some `]`, and what stands on either
side of that `]` has the depths one expects. -/
theorem exists_close_of_depthAfter? {k d : Nat} {xs : List Symbol}
    (h : depthAfter? (k + d + 1) xs = some 0) :
    ∃ ys zs, xs = ys ++ .loopClose :: zs ∧ depthAfter? k ys = some 0 ∧
      depthAfter? d zs = some 0 := by
  induction xs generalizing k with
  | nil => cases h
  | cons s xs ih =>
    rcases symbol_cases s with rfl | rfl | hs
    · -- One more loop is open, so it is from one higher that the depth comes down.
      rw [depthAfter?_open, show k + d + 1 + 1 = k + 1 + d + 1 by omega] at h
      rcases ih h with ⟨ys, zs, rfl, hys, hzs⟩
      exact ⟨.loopOpen :: ys, zs, rfl, hys, hzs⟩
    · cases k with
      | zero =>
        -- This is the `]`.
        rw [Nat.zero_add] at h
        exact ⟨[], xs, rfl, rfl, h⟩
      | succ k =>
        rw [show k + 1 + d + 1 = k + d + 1 + 1 by omega, depthAfter?_close_succ] at h
        rcases ih h with ⟨ys, zs, rfl, hys, hzs⟩
        exact ⟨.loopClose :: ys, zs, rfl, hys, hzs⟩
    · rw [depthAfter?_plain hs] at h
      rcases ih h with ⟨ys, zs, rfl, hys, hzs⟩
      exact ⟨s :: ys, zs, rfl, by rw [depthAfter?_plain hs, hys], hzs⟩

/-- If the depth falls below zero, it does so at some `]`, before which it has come down to zero. -/
theorem exists_close_of_depthAfter?_eq_none {d : Nat} {xs : List Symbol}
    (h : depthAfter? d xs = none) :
    ∃ ys zs, xs = ys ++ .loopClose :: zs ∧ depthAfter? d ys = some 0 := by
  induction xs generalizing d with
  | nil => cases h
  | cons s xs ih =>
    rcases symbol_cases s with rfl | rfl | hs
    · rw [depthAfter?_open] at h
      rcases ih h with ⟨ys, zs, rfl, hys⟩
      exact ⟨.loopOpen :: ys, zs, rfl, hys⟩
    · cases d with
      | zero => exact ⟨[], xs, rfl, rfl⟩
      | succ d =>
        rw [depthAfter?_close_succ] at h
        rcases ih h with ⟨ys, zs, rfl, hys⟩
        exact ⟨.loopClose :: ys, zs, rfl, hys⟩
    · rw [depthAfter?_plain hs] at h
      rcases ih h with ⟨ys, zs, rfl, hys⟩
      exact ⟨s :: ys, zs, rfl, by rw [depthAfter?_plain hs, hys]⟩

end Program

/-! ## Balance -/

/-- Rows of symbols in which every bracket has a partner. -/
inductive Balanced : List Symbol → Prop where
  | nil : Balanced []
  | plain {s : Symbol} {rest : List Symbol} (hs : s.isBracket = false) (hrest : Balanced rest) :
    Balanced (s :: rest)
  | loop {body rest : List Symbol} (hbody : Balanced body) (hrest : Balanced rest) :
    Balanced (.loopOpen :: (body ++ .loopClose :: rest))

namespace Balanced

/-- Balanced rows can be put in a row. -/
theorem append {xs ys : List Symbol} (hx : Balanced xs) (hy : Balanced ys) :
    Balanced (xs ++ ys) := by
  induction hx with
  | nil => exact hy
  | plain hs _ ih => exact .plain hs ih
  | loop hbody _ _ ih =>
    -- The second row goes behind what follows the loop, and the body stays.
    rw [List.cons_append, List.append_assoc, List.cons_append]
    exact .loop hbody ih

/-- A balanced row leaves every depth as it was. -/
theorem depthAfter? {xs : List Symbol} (h : Balanced xs) (d : Nat) :
    Program.depthAfter? d xs = some d := by
  induction h generalizing d with
  | nil => rfl
  | plain hs _ ih => rw [Program.depthAfter?_plain hs, ih]
  | loop _ _ ihbody ihrest =>
    -- The body is read one deeper, and the `]` takes that back.
    rw [Program.depthAfter?_open, Program.depthAfter?_append, ihbody, Option.bind_some,
      Program.depthAfter?_close_succ, ihrest]

end Balanced

/-- A row without brackets is balanced. -/
theorem balanced_of_plain {xs : List Symbol} (h : ∀ s ∈ xs, s.isBracket = false) :
    Balanced xs := by
  induction xs with
  | nil => exact .nil
  | cons s xs ih =>
    have hs : s.isBracket = false := h s List.mem_cons_self
    have hrest : Balanced xs := by
      apply ih
      intro t ht
      exact h t (List.mem_cons_of_mem s ht)
    exact .plain hs hrest

/-- A row whose depth is zero at both ends is built by the grammar. -/
theorem balanced_of_depthAfter? {xs : List Symbol} (h : depthAfter? 0 xs = some 0) :
    Balanced xs := by
  -- By induction on the length, since a loop splits its tail at a place that is not known before.
  induction hn : xs.length using Nat.strongRecOn generalizing xs with
  | ind n ih =>
    cases xs with
    | nil => exact .nil
    | cons s xs =>
      rw [List.length_cons] at hn
      rcases Program.symbol_cases s with rfl | rfl | hs
      · -- The `]` where the depth is back at zero closes the loop, and splits the row into its body
        -- and what follows.
        rcases Program.exists_close_of_depthAfter? (k := 0) (d := 0) h with ⟨ys, zs, rfl, hys, hzs⟩
        rw [List.length_append, List.length_cons] at hn
        have hbody : Balanced ys := ih ys.length (by omega) hys rfl
        have hrest : Balanced zs := ih zs.length (by omega) hzs rfl
        exact .loop hbody hrest
      · cases h
      · rw [Program.depthAfter?_plain hs] at h
        exact .plain hs (ih xs.length (by omega) h rfl)

/-- The grammar and the counter agree. -/
theorem balanced_iff_depthAfter? {xs : List Symbol} :
    Balanced xs ↔ depthAfter? 0 xs = some 0 := by
  constructor
  · intro h
    exact h.depthAfter? 0
  · exact balanced_of_depthAfter?

/-- What a program computes of itself is whether the grammar builds it. -/
theorem Program.isBalanced_iff {p : Program} : p.isBalanced ↔ Balanced p.symbols := by
  rw [balanced_iff_depthAfter?, Program.isBalanced, beq_iff_eq]

/-! ## Loading -/

/-- Whether a program can be loaded. -/
def Program.isLoadable (p : Program) : Bool :=
  (JumpTable.build p.symbols).isOk

/-- The stack of open loops is as high as the depth, so filling a jump table gets stuck where the
depth does. -/
theorem JumpTable.fill_isOk (xs : List Symbol) (position : Nat) (opened : List Nat)
    (targets : Array (Option Nat)) :
    (fill xs position opened targets).isOk = (depthAfter? opened.length xs).isSome := by
  induction xs generalizing position opened targets with
  | nil => rfl
  | cons s xs ih =>
    cases s with
    | loopOpen => exact ih (position + 1) (position :: opened) targets
    | loopClose =>
      cases opened with
      | nil => rfl
      | cons start opened =>
        -- The targets that are linked here say nothing about whether the rest gets stuck.
        exact ih (position + 1) opened _
    -- Other symbols touch neither the stack nor the depth.
    | _ => exact ih (position + 1) opened targets

theorem isOk_map {ε α β : Type} (f : α → β) (x : Except ε α) :
    (x.map f).isOk = x.isOk := by
  cases x <;> rfl

namespace Program

/-- A program can be loaded exactly if its depth never falls below zero. -/
theorem isLoadable_iff {p : Program} : p.isLoadable ↔ (depthAfter? 0 p.symbols).isSome := by
  unfold isLoadable JumpTable.build
  rw [isOk_map, JumpTable.fill_isOk]
  rfl

/-- Balanced programs can be loaded; the others are those that leave loops open. -/
theorem isLoadable_of_balanced {p : Program} (h : Balanced p.symbols) : p.isLoadable := by
  rw [isLoadable_iff, h.depthAfter? 0]
  rfl

/-- To be able to be loaded is to have a jump table. -/
theorem isLoadable_iff_exists_build {p : Program} :
    p.isLoadable ↔ ∃ table, JumpTable.build p.symbols = .ok table := by
  unfold isLoadable
  cases JumpTable.build p.symbols with
  | ok table =>
    constructor
    · intro _
      exact ⟨table, rfl⟩
    · intro _
      rfl
  | error fault =>
    constructor
    · intro h
      cases h
    · rintro ⟨table, h⟩
      cases h

/-- A program that cannot be loaded has a bracket to blame. -/
theorem not_isLoadable_iff_exists_fault {p : Program} :
    ¬ p.isLoadable ↔ ∃ fault, JumpTable.build p.symbols = .error fault := by
  unfold isLoadable
  cases JumpTable.build p.symbols with
  | ok table =>
    constructor
    · intro h
      exact absurd rfl h
    · rintro ⟨fault, h⟩
      cases h
  | error fault =>
    constructor
    · intro _
      exact ⟨fault, rfl⟩
    · intro _ h
      cases h

end Program

end TapeBreeder
