import Mathlib.Order.Bounds.Basic
import TapeBreeder.Proofs.Brackets.Nesting
import TapeBreeder.Proofs.Machine.Budget
import TapeBreeder.Proofs.Machine.Faults

/-!
# The course of a run

A run goes from machine to machine, one symbol at a time. What is said here of every machine on its
way is read off what one symbol can do: it changes the cell under the cursor or moves the cursor by
one cell, and it goes on to the next symbol or behind the partner of a bracket.

* `Code.next?`, `Code.after?` — the machine after one more symbol, and after so many.
* `Code.jumpTaken?` — the bracket that a machine is about to jump to.
* `Code.next?_cases` — all that one symbol can do to the tape and the position.
* `Code.isGreatest_cursors` — the last cell of the tape is the farthest one that the cursor has been
  on, by induction on the number of symbols.
* `Code.InBounds` — what a machine does next stays on the tape and in the code.
* `Program.lt_position_of_after?` — no machine gets back to a `[` without partner, because no pair
  of brackets is on both sides of it.
* `course_in_bounds` — what holds at every point of a run.
-/

namespace TapeBreeder

/-! ## Tapes -/

/-- What one symbol can do to a tape. -/
inductive Tape.Change (t : Tape) : Tape → Prop where
  | kept : Change t t
  | written (value : UInt8) : Change t (t.write value)
  | movedLeft : Change t t.moveLeft
  | movedRight : Change t t.moveRight

/-- A tape grows when the cursor leaves it, and just as far as the cursor goes. -/
theorem Tape.Change.size_eq {t t' : Tape} (h : t.Change t') (hin : t.cursor < t.cells.size) :
    t'.cells.size = max t.cells.size (t'.cursor + 1) := by
  cases h with
  | kept => omega
  | written value =>
    show (t.cells.setIfInBounds t.cursor value).size = max t.cells.size (t.cursor + 1)
    rw [Array.size_setIfInBounds]
    omega
  | movedLeft =>
    show t.cells.size = max t.cells.size (t.cursor - 1 + 1)
    omega
  | movedRight =>
    unfold moveRight
    split
    · -- The cursor was on the last cell, so a cell has been added.
      show (t.cells.push 0).size = max t.cells.size (t.cursor + 1 + 1)
      rw [Array.size_push]
      omega
    · show t.cells.size = max t.cells.size (t.cursor + 1 + 1)
      omega

/-- Reading a cell with a default is reading the cell that is there, as long as the cursor is on the
tape. -/
theorem Tape.getElem?_cursor {t : Tape} (h : t.cursor < t.cells.size) :
    t.cells[t.cursor]? = some t.read := by
  rw [read, Array.getD_eq_getD_getElem?, Array.getElem?_eq_getElem h]
  rfl

/-! ## From machine to machine -/

namespace Code

/-- The machine after one more symbol, unless the code is at its end or the symbol fails. -/
def next? (code : Code) (m : Machine) : Option Machine :=
  match code.symbols[m.position]? with
  | none => none
  | some symbol => (code.step symbol m).toOption

/-- The machine after so many symbols, unless the run has ended before. -/
def after? (code : Code) (m : Machine) : Nat → Option Machine
  | 0 => some m
  | n + 1 => (code.after? m n).bind code.next?

/-- The target of the jump that a machine is about to take: from a `[` with a zero in the cell, and
from a `]` with anything else in it. -/
def jumpTaken? (code : Code) (m : Machine) : Option Nat :=
  match code.symbols[m.position]? with
  | some .loopOpen => if m.tape.read = 0 then code.jumps.jump? m.position else none
  | some .loopClose => if m.tape.read = 0 then none else code.jumps.jump? m.position
  | _ => none

/-- What a machine does next stays on the tape and in the code. The cell under its cursor is there
to be read and written. It stands at a symbol or at the end, and goes on to the symbol behind,
unless it takes a jump, which leads from a bracket to one of the other kind. -/
structure InBounds (code : Code) (m : Machine) : Prop where
  cursor_lt : m.tape.cursor < m.tape.cells.size
  cell : m.tape.cells[m.tape.cursor]? = some m.tape.read
  position_le : m.position ≤ code.symbols.size
  goesOn : ∀ m', code.next? m = some m' → code.jumpTaken? m = none →
    m'.position = m.position + 1
  jumps : ∀ target, code.jumpTaken? m = some target →
    code.next? m = some { m with position := target + 1 } ∧ target < code.symbols.size ∧
      (code.symbols[m.position]? = some .loopOpen ∧ code.symbols[target]? = some .loopClose ∨
        code.symbols[m.position]? = some .loopClose ∧ code.symbols[target]? = some .loopOpen)

/-- The places of the cursor during the first so many symbols. -/
def cursors (code : Code) (m : Machine) (n : Nat) : Set Nat :=
  {c | ∃ k, k ≤ n ∧ ∃ m', code.after? m k = some m' ∧ m'.tape.cursor = c}

variable {code : Code} {m m' : Machine} {n : Nat}

theorem next?_eq_some_iff : code.next? m = some m' ↔
    ∃ symbol, code.symbols[m.position]? = some symbol ∧ code.step symbol m = .ok m' := by
  unfold next?
  cases code.symbols[m.position]? with
  | none => simp
  | some symbol => cases hstep : code.step symbol m <;> simp [hstep, Except.toOption]

/-- A run is followed from its end: the last symbol is taken apart from the ones before. This is the
step of the inductions below. -/
theorem after?_succ_eq_some_iff : code.after? m (n + 1) = some m' ↔
    ∃ before, code.after? m n = some before ∧ code.next? before = some m' :=
  Option.bind_eq_some_iff

/-- A run goes on from the machine that it has come to. -/
theorem run_of_after? (h : code.after? m n = some m') (extra : Nat) :
    code.run (n + extra) m = code.run extra m' := by
  -- The last symbol is the first one of the rest that is left to the budget after the others.
  induction n generalizing m' extra with
  | zero =>
    obtain rfl := Option.some.inj h
    rw [Nat.zero_add]
  | succ n ih =>
    rcases after?_succ_eq_some_iff.mp h with ⟨before, hbefore, hnext⟩
    rcases next?_eq_some_iff.mp hnext with ⟨symbol, hsymbol, hstep⟩
    rw [Nat.add_assoc, Nat.add_comm 1 extra, ih hbefore, run_of_step hsymbol hstep]

/-- A run that has not ended within its budget has come to a machine for all of its symbols. -/
theorem exists_after?_of_outOfBudget (h : (code.run n m).outcome = .outOfBudget) :
    ∃ m', code.after? m n = some m' := by
  induction n with
  | zero => exact ⟨m, rfl⟩
  | succ n ih =>
    have hearlier : (code.run n m).outcome = .outOfBudget := by
      by_contra hends
      rw [run_add 1 hends] at h
      exact hends h
    rcases ih hearlier with ⟨before, hbefore⟩
    -- The run has one more symbol to go from there, and does not end with it.
    rw [run_of_after? hbefore] at h
    cases hsymbol : code.symbols[before.position]? with
    | none =>
      rw [run_of_end hsymbol] at h
      cases h
    | some symbol =>
      cases hstep : code.step symbol before with
      | error fault =>
        rw [run_of_error hsymbol hstep] at h
        cases h
      | ok m' =>
        have hnext := next?_eq_some_iff.mpr ⟨symbol, hsymbol, hstep⟩
        exact ⟨m', after?_succ_eq_some_iff.mpr ⟨before, hbefore, hnext⟩⟩

/-- One symbol changes the tape in one of four ways. It goes on to the symbol behind it, or behind
the target of a jump, which leaves all but the position as it was. -/
theorem next?_cases (h : code.next? m = some m') :
    m.tape.Change m'.tape ∧
      (code.jumpTaken? m = none ∧ m'.position = m.position + 1 ∨
        ∃ target, code.jumpTaken? m = some target ∧ m' = { m with position := target + 1 }) := by
  rcases next?_eq_some_iff.mp h with ⟨symbol, hsymbol, hstep⟩
  unfold jumpTaken?
  rw [hsymbol]
  rcases m with ⟨position, tape, pending, printed⟩
  -- Six symbols go on in any case. The brackets go on or jump, by the cell and by their kind.
  cases symbol with
  | increment | decrement =>
    cases hstep
    exact ⟨.written _, .inl ⟨rfl, rfl⟩⟩
  | left =>
    cases hstep
    exact ⟨.movedLeft, .inl ⟨rfl, rfl⟩⟩
  | right =>
    cases hstep
    exact ⟨.movedRight, .inl ⟨rfl, rfl⟩⟩
  | output =>
    cases hstep
    exact ⟨.kept, .inl ⟨rfl, rfl⟩⟩
  | input =>
    cases pending with
    | nil =>
      cases hstep
      exact ⟨.written _, .inl ⟨rfl, rfl⟩⟩
    | cons c rest =>
      cases hstep
      exact ⟨.written _, .inl ⟨rfl, rfl⟩⟩
  | loopOpen =>
    simp only [step] at hstep ⊢
    split at hstep
    · next hzero =>
      split at hstep
      · next target htarget =>
        cases hstep
        exact ⟨.kept, .inr ⟨target, by rw [if_pos hzero, target_eq_ok_iff.mp htarget], rfl⟩⟩
      · cases hstep
    · next hne =>
      cases hstep
      exact ⟨.kept, .inl ⟨if_neg hne, rfl⟩⟩
  | loopClose =>
    simp only [step] at hstep ⊢
    split at hstep
    · next hne =>
      split at hstep
      · next target htarget =>
        cases hstep
        exact ⟨.kept, .inr ⟨target, by rw [if_neg hne, target_eq_ok_iff.mp htarget], rfl⟩⟩
      · cases hstep
    · next hzero =>
      cases hstep
      exact ⟨.kept, .inl ⟨if_pos (Decidable.not_not.mp hzero), rfl⟩⟩

/-- A jump that is about to be taken is taken. -/
theorem next?_of_jumpTaken? {target : Nat} (h : code.jumpTaken? m = some target) :
    code.jumps.jump? m.position = some target ∧
      code.next? m = some { m with position := target + 1 } := by
  rcases m with ⟨position, tape, pending, printed⟩
  unfold jumpTaken? at h
  split at h
  · next hsymbol =>
    split at h
    · next hzero =>
      refine ⟨h, next?_eq_some_iff.mpr ⟨.loopOpen, hsymbol, ?_⟩⟩
      simp only [step]
      rw [if_pos hzero, target_eq_ok_iff.mpr h]
    · cases h
  · next hsymbol =>
    split at h
    · cases h
    · next hne =>
      refine ⟨h, next?_eq_some_iff.mpr ⟨.loopClose, hsymbol, ?_⟩⟩
      simp only [step]
      rw [if_pos hne, target_eq_ok_iff.mpr h]
  · cases h

/-! ## The tape along a run -/

theorem cursors_succ (h : code.after? m (n + 1) = some m') :
    code.cursors m (n + 1) = insert m'.tape.cursor (code.cursors m n) := by
  ext c
  constructor
  · rintro ⟨k, hk, before, hbefore, rfl⟩
    rcases Nat.le_succ_iff.mp hk with hle | rfl
    · exact .inr ⟨k, hle, before, hbefore, rfl⟩
    · rw [h] at hbefore
      obtain rfl := Option.some.inj hbefore
      exact .inl rfl
  · rintro (rfl | ⟨k, hk, before, hbefore, rfl⟩)
    · exact ⟨n + 1, Nat.le_refl _, m', h, rfl⟩
    · exact ⟨k, Nat.le_succ_of_le hk, before, hbefore, rfl⟩

/-- The cursor of a machine that begins on a blank tape stays on the tape, and the last cell is the
farthest one that it has been on. -/
theorem isGreatest_cursors (hblank : m.tape = .blank) (h : code.after? m n = some m') :
    m'.tape.cursor < m'.tape.cells.size ∧
      IsGreatest (code.cursors m n) (m'.tape.cells.size - 1) := by
  -- By induction on the number of symbols; each of them adds one place of the cursor.
  induction n generalizing m' with
  | zero =>
    obtain rfl := Option.some.inj h
    have hcursors : code.cursors m 0 = {0} := by
      ext c
      constructor
      · rintro ⟨k, hk, before, hbefore, rfl⟩
        obtain rfl := Nat.le_zero.mp hk
        obtain rfl := Option.some.inj hbefore
        rw [hblank]
        rfl
      · rintro rfl
        exact ⟨0, Nat.le_refl 0, m, rfl, by rw [hblank]; rfl⟩
    rw [hcursors, hblank]
    exact ⟨Nat.zero_lt_one, isGreatest_singleton⟩
  | succ n ih =>
    rcases after?_succ_eq_some_iff.mp h with ⟨before, hbefore, hnext⟩
    rcases ih hbefore with ⟨hin, hgreatest⟩
    have hsize := (next?_cases hnext).1.size_eq hin
    -- The tape has grown exactly if the cursor has left it.
    have hlast : m'.tape.cells.size - 1 = max m'.tape.cursor (before.tape.cells.size - 1) := by
      omega
    rw [cursors_succ h, hlast]
    exact ⟨by omega, hgreatest.insert m'.tape.cursor⟩

end Code

/-! ## Positions along a run -/

namespace Program

variable {p : Program} {code : Code} {m m' : Machine} {q : Nat}

/-- Jumps go from one bracket of a pair to the other. -/
theorem isPair_of_jumpTaken? (hload : p.load = .ok code) {target : Nat}
    (h : code.jumpTaken? m = some target) :
    IsPair p.symbols m.position target ∨ IsPair p.symbols target m.position := by
  rcases load_eq_ok_iff.mp hload with ⟨table, hbuild, rfl⟩
  have hjump : table.jump? m.position = some target := (Code.next?_of_jumpTaken? h).1
  rw [JumpTable.jump?_eq_partner? hbuild] at hjump
  exact isPair_of_partner? hjump

/-- The brackets of a jump face each other. -/
theorem faces_of_jumpTaken? (hload : p.load = .ok code) {target : Nat}
    (h : code.jumpTaken? m = some target) :
    code.symbols[m.position]? = some .loopOpen ∧ code.symbols[target]? = some .loopClose ∨
      code.symbols[m.position]? = some .loopClose ∧ code.symbols[target]? = some .loopOpen := by
  have hpair := isPair_of_jumpTaken? hload h
  rcases load_eq_ok_iff.mp hload with ⟨table, -, rfl⟩
  simp only [List.getElem?_toArray]
  rcases hpair with hpair | hpair
  · exact .inl ⟨hpair.getElem?_first, hpair.getElem?_second⟩
  · exact .inr ⟨hpair.getElem?_second, hpair.getElem?_first⟩

/-- The target of a jump is a bracket of the program, so it is not behind the end. -/
theorem target_lt_of_jumpTaken? (hload : p.load = .ok code) {target : Nat}
    (h : code.jumpTaken? m = some target) : target < code.symbols.size := by
  rcases faces_of_jumpTaken? hload h with ⟨-, hclose⟩ | ⟨-, hopen⟩
  · exact (Array.getElem?_eq_some_iff.mp hclose).1
  · exact (Array.getElem?_eq_some_iff.mp hopen).1

/-- Going on from a symbol leads at most to the end, and so does a jump. -/
theorem position_le_of_next? (hload : p.load = .ok code) (h : code.next? m = some m') :
    m'.position ≤ code.symbols.size := by
  rcases (Code.next?_cases h).2 with ⟨-, hposition⟩ | ⟨target, htarget, rfl⟩
  · rcases Code.next?_eq_some_iff.mp h with ⟨symbol, hsymbol, -⟩
    rw [hposition]
    exact (Array.getElem?_eq_some_iff.mp hsymbol).1
  · exact target_lt_of_jumpTaken? hload htarget

/-- The machines of a run stay in bounds, as long as their cursors do. -/
theorem inBounds_of_after? (hload : p.load = .ok code) {input : String} {n : Nat}
    (h : code.after? (.start input) n = some m) (hin : m.tape.cursor < m.tape.cells.size) :
    code.InBounds m where
  cursor_lt := hin
  cell := Tape.getElem?_cursor hin
  position_le := by
    cases n with
    | zero =>
      obtain rfl := Option.some.inj h
      exact Nat.zero_le _
    | succ n =>
      rcases Code.after?_succ_eq_some_iff.mp h with ⟨before, -, hnext⟩
      exact position_le_of_next? hload hnext
  goesOn m' hnext hnone := by
    rcases (Code.next?_cases hnext).2 with ⟨-, hposition⟩ | ⟨target, htarget, -⟩
    · exact hposition
    · rw [htarget] at hnone
      cases hnone
  jumps target htarget := by
    have hnext := (Code.next?_of_jumpTaken? htarget).2
    exact ⟨hnext, target_lt_of_jumpTaken? hload htarget, faces_of_jumpTaken? hload htarget⟩

/-- One symbol does not lead back to a `[` without partner, or before it. -/
theorem lt_position_of_next? (hload : p.load = .ok code) (hopen : p.symbols[q]? = some .loopOpen)
    (hnone : p.partner? q = none) (h : code.next? m = some m') (hle : q ≤ m.position) :
    q < m'.position := by
  rcases (Code.next?_cases h).2 with ⟨-, hposition⟩ | ⟨target, htarget, rfl⟩
  · omega
  · show q < target + 1
    rcases isPair_of_jumpTaken? hload htarget with hpair | hpair
    · have hlt := hpair.lt
      omega
    · -- A jump back over the `[` would be within a pair that has it inside.
      by_contra hback
      have hne : q ≠ m.position := by
        rintro rfl
        rw [hpair.getElem?_second] at hopen
        cases hopen
      rcases hpair.exists_inside (by omega) (by omega) hopen rfl with ⟨l, -, -, hpartner⟩
      rw [partner?_eq_some_iff.mpr hpartner] at hnone
      cases hnone

/-- A run that has come to a `[` without partner, or behind it, is behind it from then on. -/
theorem lt_position_of_after? (hload : p.load = .ok code) (hopen : p.symbols[q]? = some .loopOpen)
    (hnone : p.partner? q = none) {start : Machine} {k n : Nat} (hkn : k < n)
    (hk : code.after? start k = some m) (hn : code.after? start n = some m')
    (hle : q ≤ m.position) : q < m'.position := by
  -- By induction on the later of the two points.
  induction n generalizing m' with
  | zero => exact absurd hkn (Nat.not_lt_zero k)
  | succ n ih =>
    rcases Code.after?_succ_eq_some_iff.mp hn with ⟨before, hbefore, hnext⟩
    have hbehind : q ≤ before.position := by
      rcases Nat.lt_succ_iff_lt_or_eq.mp hkn with hlt | rfl
      · exact Nat.le_of_lt (ih hlt hbefore)
      · rw [hk] at hbefore
        obtain rfl := Option.some.inj hbefore
        exact hle
    exact lt_position_of_next? hload hopen hnone hnext hbehind

end Program

/-- What holds at every point of a run of a program that can be loaded, that is after any number of
symbols for which it has not ended. The rest of the run is a run from there. The machine is in
bounds, and the last cell of its tape is the farthest one that the cursor has been on. Once the run
has come to a `[` without partner, it never returns to it nor to what is before it, so that no such
`[` is executed twice. -/
theorem course_in_bounds {p : Program} {code : Code} (hload : p.load = .ok code) (input : String) :
    (∀ n, (p.run input n).outcome = .outOfBudget → ∃ m, code.after? (.start input) n = some m) ∧
    (∀ (n : Nat) (m : Machine), code.after? (.start input) n = some m →
      (∀ extra, p.run input (n + extra) = code.run extra m) ∧ code.InBounds m ∧
        IsGreatest (code.cursors (.start input) n) (m.tape.cells.size - 1)) ∧
    (∀ q, p.symbols[q]? = some .loopOpen → p.partner? q = none →
      ∀ (k n : Nat) (m m' : Machine), code.after? (.start input) k = some m →
        code.after? (.start input) n = some m' →
        (k < n → q ≤ m.position → q < m'.position) ∧
          (m.position = q → m'.position = q → k = n)) := by
  have hrun : ∀ n, p.run input n = code.run n (.start input) := by
    intro n
    rw [Program.run, hload]
  refine ⟨?_, ?_, ?_⟩
  · intro n hbudget
    rw [hrun] at hbudget
    exact Code.exists_after?_of_outOfBudget hbudget
  · intro n m hm
    rcases Code.isGreatest_cursors rfl hm with ⟨hin, hgreatest⟩
    refine ⟨?_, Program.inBounds_of_after? hload hm hin, hgreatest⟩
    intro extra
    rw [hrun]
    exact Code.run_of_after? hm extra
  · intro q hopen hnone k n m m' hm hm'
    refine ⟨fun hkn hle => Program.lt_position_of_after? hload hopen hnone hkn hm hm' hle, ?_⟩
    intro hk hn
    -- If the two points differ, the later one is behind the `[`, and so not at it.
    rcases Nat.lt_trichotomy k n with hkn | heq | hnk
    · have hlt := Program.lt_position_of_after? hload hopen hnone hkn hm hm' (Nat.le_of_eq hk.symm)
      omega
    · exact heq
    · have hlt := Program.lt_position_of_after? hload hopen hnone hnk hm' hm (Nat.le_of_eq hn.symm)
      omega

/-- The code of `+[>,[<.>-]`, whose first `[` has no partner. -/
def Code.unclosed : Code where
  symbols := #[.increment, .loopOpen, .right, .input, .loopOpen, .left, .output, .right, .decrement,
    .loopClose]
  jumps := ⟨#[none, none, none, none, some 9, none, none, none, none, some 4]⟩

/-- Nine symbols lead from `+` to the `]`, with the cursor on the second of two cells. The loop is
taken once more from there, and five symbols later the run has not ended yet. The `[` in front of
the loop, passed with the second symbol, is left behind for good. -/
theorem course_in_bounds_unclosed :
    (Program.parse "+[>,[<.>-]").load = .ok .unclosed ∧
      ((Program.parse "+[>,[<.>-]").run "\x02" 14).outcome = .outOfBudget ∧
      (∃ m, Code.unclosed.after? (.start "\x02") 14 = some m) ∧
      (∃ m, Code.unclosed.after? (.start "\x02") 9 = some m ∧ Code.unclosed.InBounds m ∧
        IsGreatest (Code.unclosed.cursors (.start "\x02") 9) 1 ∧
        Code.unclosed.jumpTaken? m = some 4 ∧
        Code.unclosed.next? m = some { m with position := 5 } ∧ 1 < m.position) ∧
      (Program.parse "+[>,[<.>-]").partner? 1 = none := by
  have hload : (Program.parse "+[>,[<.>-]").load = .ok .unclosed := rfl
  have hlong : ((Program.parse "+[>,[<.>-]").run "\x02" 14).outcome = .outOfBudget := by
    decide +kernel
  have hpassed : Code.unclosed.after? (.start "\x02") 1 = some ⟨1, ⟨#[1], 0⟩, ['\x02'], []⟩ := by
    decide +kernel
  have hclose : Code.unclosed.after? (.start "\x02") 9 =
      some ⟨9, ⟨#[1, 1], 1⟩, [], [1]⟩ := by
    decide +kernel
  have hjump : Code.unclosed.jumpTaken? ⟨9, ⟨#[1, 1], 1⟩, [], [1]⟩ = some 4 := by decide
  have hnone : (Program.parse "+[>,[<.>-]").partner? 1 = none := by decide
  rcases course_in_bounds hload "\x02" with ⟨hends, hpoints, hbehind⟩
  rcases hpoints 9 _ hclose with ⟨-, hbounds, hgreatest⟩
  have hlater := (hbehind 1 rfl hnone 1 9 _ _ hpassed hclose).1 (by decide) (Nat.le_refl 1)
  exact ⟨hload, hlong, hends 14 hlong,
    ⟨_, hclose, hbounds, hgreatest, hjump, (hbounds.jumps 4 hjump).1, hlater⟩, hnone⟩

end TapeBreeder
