import TapeBreeder.Machine
import TapeBreeder.Proofs.Structured.Syntax

/-!
# The layout of structured programs

Code is a row of symbols with a table of jumps. `Structured.IsLaidOut` says that a tree stands at
a position of some code: its symbols are there, the two ends of each loop point at each other, and
an unclosed `[` points nowhere and knows where it stands.

* `Structured.FillsTo`, `exists_fillsTo` — what the pass that fills a jump table does when it
  comes across a tree, by induction on the tree.
* `Program.HasStructure.exists_load` — the code of a program is laid out as its structure.
-/

namespace TapeBreeder

/-! ## Layout -/

/-- Two positions of some code hold the two ends of a loop and point at each other. -/
structure Code.IsLoopAt (code : Code) (first second : Nat) : Prop where
  opens : code.symbols[first]? = some .loopOpen
  closes : code.symbols[second]? = some .loopClose
  forth : code.jumps.jump? first = some second
  back : code.jumps.jump? second = some first

namespace Structured

/-- Whether a tree stands at a position of some code. -/
def IsLaidOut (code : Code) : Nat → Structured → Prop
  | _, done => True
  | position, perform i rest =>
    code.symbols[position]? = some i.toSymbol ∧ rest.IsLaidOut code (position + 1)
  | position, loop body rest =>
    code.IsLoopAt position (position + body.size + 1) ∧ body.IsLaidOut code (position + 1) ∧
      rest.IsLaidOut code (position + body.size + 2)
  | position, unclosed p rest =>
    p = position ∧ code.symbols[position]? = some .loopOpen ∧
      code.jumps.jump? position = none ∧ rest.IsLaidOut code (position + 1)

/-! ## Links -/

/-- The part of the layout that concerns jump targets. -/
def IsLinkedAt (targets : Array (Option Nat)) : Nat → Structured → Prop
  | _, done => True
  | position, perform _ rest => rest.IsLinkedAt targets (position + 1)
  | position, loop body rest =>
    targets[position]? = some (some (position + body.size + 1)) ∧
      targets[position + body.size + 1]? = some (some position) ∧
      body.IsLinkedAt targets (position + 1) ∧ rest.IsLinkedAt targets (position + body.size + 2)
  | position, unclosed p rest =>
    p = position ∧ targets[position]? = some none ∧ rest.IsLinkedAt targets (position + 1)

/-- Only the targets of the positions of a tree matter for its links. -/
theorem IsLinkedAt.congr {t : Structured} {position : Nat} {targets targets' : Array (Option Nat)}
    (h : t.IsLinkedAt targets position)
    (heq : ∀ k, position ≤ k → k < position + t.size → targets'[k]? = targets[k]?) :
    t.IsLinkedAt targets' position := by
  induction t generalizing position with
  | done => trivial
  | perform i rest ih =>
    rw [size] at heq
    apply ih h
    intro k hk hk'
    exact heq k (by omega) (by omega)
  | loop body rest ihbody ihrest =>
    rw [size] at heq
    rcases h with ⟨hforth, hback, hbody, hrest⟩
    refine ⟨?_, ?_, ?_, ?_⟩
    · rw [heq position (by omega) (by omega), hforth]
    · rw [heq (position + body.size + 1) (by omega) (by omega), hback]
    · apply ihbody hbody
      intro k hk hk'
      exact heq k (by omega) (by omega)
    · apply ihrest hrest
      intro k hk hk'
      exact heq k (by omega) (by omega)
  | unclosed p rest ih =>
    rw [size] at heq
    rcases h with ⟨hposition, hnone, hrest⟩
    refine ⟨hposition, ?_, ?_⟩
    · rw [heq position (by omega) (by omega), hnone]
    · apply ih hrest
      intro k hk hk'
      exact heq k (by omega) (by omega)

/-! ## Filling the jump table -/

/-- So many positions without targets. -/
def IsFreshFrom (targets : Array (Option Nat)) (position count : Nat) : Prop :=
  ∀ k, position ≤ k → k < position + count → targets[k]? = some none

/-- Fewer positions are fresh too. -/
theorem IsFreshFrom.mono {targets : Array (Option Nat)} {position count position' count' : Nat}
    (h : IsFreshFrom targets position count) (hfirst : position ≤ position')
    (hlast : position' + count' ≤ position + count) : IsFreshFrom targets position' count' := by
  intro k hk hk'
  exact h k (by omega) (by omega)

/-- What filling does over a tree: it goes on behind the tree, with the same open loops if the
tree is closed, and it has linked the tree and touched nothing else. -/
structure FillsTo (t : Structured) (position : Nat) (opened opened' : List Nat)
    (targets targets' : Array (Option Nat)) : Prop where
  fill_append : ∀ rest, JumpTable.fill (t.symbols ++ rest) position opened targets =
    JumpTable.fill rest (position + t.size) opened' targets'
  opened_eq : t.IsClosed → opened' = opened
  frame : ∀ k, k < position ∨ position + t.size ≤ k → targets'[k]? = targets[k]?
  linked : t.IsLinkedAt targets' position

theorem fill_instruction (i : Instruction) (rest : List Symbol) (position : Nat)
    (opened : List Nat) (targets : Array (Option Nat)) :
    JumpTable.fill (i.toSymbol :: rest) position opened targets =
      JumpTable.fill rest (position + 1) opened targets := by
  cases i <;> rfl

/-- The targets after a `]` at `second` has closed the loop that begins at `first`. -/
theorem getElem?_link {targets : Array (Option Nat)} {first second : Nat} (hne : first ≠ second)
    (hfirst : first < targets.size) (hsecond : second < targets.size) (k : Nat) :
    ((targets.setIfInBounds first (some second)).setIfInBounds second (some first))[k]? =
      if k = first then some (some second) else if k = second then some (some first)
      else targets[k]? := by
  have hsize : (targets.setIfInBounds first (some second)).size = targets.size :=
    Array.size_setIfInBounds
  rw [Array.getElem?_setIfInBounds, Array.getElem?_setIfInBounds, hsize]
  grind

theorem lt_size_of_getElem? {targets : Array (Option Nat)} {k : Nat} {o : Option Nat}
    (h : targets[k]? = some o) : k < targets.size := by
  rcases Array.getElem?_eq_some_iff.mp h with ⟨hk, -⟩
  exact hk

/-- The pass fills the table over any tree whose positions are fresh. The frame is what makes the
induction go through: the parts of a loop are filled one after the other, and none disturbs what was
there before. -/
theorem exists_fillsTo {t : Structured} {position : Nat} (ht : t.IsPlacedAt position)
    (opened : List Nat) (targets : Array (Option Nat))
    (hfresh : IsFreshFrom targets position t.size) :
    ∃ opened' targets', t.FillsTo position opened opened' targets targets' := by
  induction t generalizing position opened targets with
  | done => exact ⟨opened, targets, fun _ => rfl, fun _ => rfl, fun _ _ => rfl, trivial⟩
  | perform i rest ih =>
    rw [size] at hfresh
    have hfreshRest : IsFreshFrom targets (position + 1) rest.size :=
      hfresh.mono (by omega) (by omega)
    rcases ih ht opened targets hfreshRest with ⟨opened', targets', h⟩
    refine ⟨opened', targets', ?_, h.opened_eq, ?_, h.linked⟩
    · intro more
      rw [symbols, List.cons_append, fill_instruction, h.fill_append, add_size_perform]
    · intro k hk
      rw [size] at hk
      exact h.frame k (by omega)
  | loop body rest ihbody ihrest =>
    rw [size] at hfresh
    rcases ht with ⟨hclosed, hbodyPlaced, hrestPlaced⟩
    -- The positions of the body are fresh when the pass comes to them.
    have hfreshBody : IsFreshFrom targets (position + 1) body.size :=
      hfresh.mono (by omega) (by omega)
    rcases ihbody hbodyPlaced (position :: opened) targets hfreshBody with
      ⟨opened₁, targets₁, hbody⟩
    -- The body is closed, so its `]` finds the `[` of this loop on top of the stack.
    obtain rfl := hbody.opened_eq hclosed
    have hfirst : position < targets₁.size := by
      refine lt_size_of_getElem? (o := none) ?_
      rw [hbody.frame position (by omega), hfresh position (by omega) (by omega)]
    have hsecond : position + body.size + 1 < targets₁.size := by
      refine lt_size_of_getElem? (o := none) ?_
      rw [hbody.frame _ (by omega), hfresh _ (by omega) (by omega)]
    have hlink := getElem?_link (by omega) hfirst hsecond
    have hfreshRest : IsFreshFrom
        ((targets₁.setIfInBounds position (some (position + body.size + 1))).setIfInBounds
          (position + body.size + 1) (some position)) (position + body.size + 2) rest.size := by
      intro k hk hk'
      rw [hlink, if_neg (by omega), if_neg (by omega), hbody.frame k (by omega),
        hfresh k (by omega) (by omega)]
    rcases ihrest hrestPlaced opened _ hfreshRest with ⟨opened₂, targets₂, hrest⟩
    refine ⟨opened₂, targets₂, ?_, ?_, ?_, ?_, ?_, ?_, hrest.linked⟩
    · intro more
      rw [add_size_loop, ← hrest.fill_append, symbols, List.cons_append, List.append_assoc,
        JumpTable.fill, hbody.fill_append, List.cons_append, JumpTable.fill,
        Nat.add_right_comm position 1]
    · intro h
      exact hrest.opened_eq h.2
    · intro k hk
      rw [size] at hk
      rw [hrest.frame k (by omega), hlink, if_neg (by omega), if_neg (by omega),
        hbody.frame k (by omega)]
    · -- What stands behind the loop leaves alone the two ends and the body.
      rw [hrest.frame position (by omega), hlink, if_pos rfl]
    · rw [hrest.frame _ (by omega), hlink, if_neg (by omega), if_pos rfl]
    · apply hbody.linked.congr
      intro k hk hk'
      rw [hrest.frame k (by omega), hlink, if_neg (by omega), if_neg (by omega)]
  | unclosed p rest ih =>
    -- The `[` stays on the stack, and nothing is linked to it.
    rw [size] at hfresh
    have hfreshRest : IsFreshFrom targets (position + 1) rest.size :=
      hfresh.mono (by omega) (by omega)
    rcases ih ht.2 (position :: opened) targets hfreshRest with ⟨opened', targets', h⟩
    refine ⟨opened', targets', ?_, ?_, ?_, ht.1, ?_, h.linked⟩
    · intro more
      rw [symbols, List.cons_append, JumpTable.fill, h.fill_append, add_size_unclosed]
    · intro hclosed
      exact hclosed.elim
    · intro k hk
      rw [size] at hk
      exact h.frame k (by omega)
    · rw [h.frame position (by omega), hfresh position (by omega) (by omega)]

/-! ## The layout of loaded programs -/

/-- A tree whose symbols stand at a position of some code, and whose links are in its table, is
laid out there. -/
theorem IsLaidOut.of_linked {t : Structured} {code : Code} {position : Nat}
    (hsymbols : ∀ k, k < t.size → code.symbols[position + k]? = t.symbols[k]?)
    (hlinked : t.IsLinkedAt code.jumps.targets position) : t.IsLaidOut code position := by
  induction t generalizing position with
  | done => trivial
  | perform i rest ih =>
    rw [size, symbols] at hsymbols
    refine ⟨by simpa using hsymbols 0 (by omega), ih ?_ hlinked⟩
    intro k hk
    have h := hsymbols (k + 1) (by omega)
    rwa [List.getElem?_cons_succ, ← Nat.add_assoc, Nat.add_right_comm] at h
  | loop body rest ihbody ihrest =>
    rw [size, symbols] at hsymbols
    rcases hlinked with ⟨hforth, hback, hbody, hrest⟩
    refine ⟨⟨?_, ?_, ?_, ?_⟩, ihbody ?_ hbody, ihrest ?_ hrest⟩
    · simpa using hsymbols 0 (by omega)
    · have h := hsymbols (body.size + 1) (by omega)
      rwa [List.getElem?_cons_succ, List.getElem?_append_right (by simp), length_symbols,
        Nat.sub_self, List.getElem?_cons_zero, ← Nat.add_assoc] at h
    · rw [JumpTable.jump?, hforth, Option.join_some]
    · rw [JumpTable.jump?, hback, Option.join_some]
    · intro k hk
      have h := hsymbols (k + 1) (by omega)
      rwa [List.getElem?_cons_succ, List.getElem?_append_left (by simpa using hk),
        ← Nat.add_assoc, Nat.add_right_comm] at h
    · intro k hk
      have h := hsymbols (body.size + 2 + k) (by omega)
      rw [show body.size + 2 + k = body.size + 1 + k + 1 by omega, List.getElem?_cons_succ,
        List.getElem?_append_right (by simp; omega), length_symbols,
        show body.size + 1 + k - body.size = k + 1 by omega, List.getElem?_cons_succ] at h
      rwa [show position + body.size + 2 + k = position + (body.size + 1 + k + 1) by omega]
  | unclosed p rest ih =>
    rw [size, symbols] at hsymbols
    rcases hlinked with ⟨hposition, hnone, hrest⟩
    refine ⟨hposition, by simpa using hsymbols 0 (by omega), ?_, ih ?_ hrest⟩
    · rw [JumpTable.jump?, hnone, Option.join_some]
    · intro k hk
      have h := hsymbols (k + 1) (by omega)
      rwa [List.getElem?_cons_succ, ← Nat.add_assoc, Nat.add_right_comm] at h

end Structured

/-- A program with a structure can be loaded, and its structure is laid out in its code. -/
theorem Program.HasStructure.exists_load {p : Program} {t : Structured} (h : p.HasStructure t) :
    ∃ code, p.load = .ok code ∧ code.symbols.size = t.size ∧ t.IsLaidOut code 0 := by
  rcases h with ⟨hsymbols, hplaced⟩
  have hsize : p.symbols.length = t.size := by rw [← hsymbols, Structured.length_symbols]
  -- The table begins without targets, so that every position is fresh.
  have hfresh : Structured.IsFreshFrom (Array.replicate t.size none) 0 t.size := by
    intro k _ hk
    rw [Array.getElem?_replicate, if_pos (by omega)]
  rcases Structured.exists_fillsTo hplaced [] _ hfresh with ⟨opened, targets, hfill⟩
  -- With nothing behind the tree, the pass ends there.
  have hbuild : JumpTable.build p.symbols = .ok ⟨targets⟩ := by
    have hrun := hfill.fill_append []
    rw [List.append_nil, hsymbols] at hrun
    rw [JumpTable.build, hsize, hrun]
    rfl
  refine ⟨⟨p.symbols.toArray, ⟨targets⟩⟩, ?_, by simpa using hsize, ?_⟩
  · rw [load, hbuild]
    rfl
  · apply Structured.IsLaidOut.of_linked _ hfill.linked
    intro k _
    rw [Nat.zero_add, hsymbols, List.getElem?_toArray]

end TapeBreeder
