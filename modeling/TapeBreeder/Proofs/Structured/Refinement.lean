import TapeBreeder.Proofs.Machine.Budget
import TapeBreeder.Proofs.Structured.Layout
import TapeBreeder.Proofs.Structured.Semantics

/-!
# The machine implements structured programs

A machine runs over code by position and jumps; a structured program runs over its tree. The two
agree: where a tree is laid out, the machine gets behind it exactly as the tree halts, and gets
stuck exactly as the tree does.

* `Machine.Agrees` — a machine and a store hold the same data.
* `Code.run_goTo_second` — the two ends of a loop are as good as each other: a machine that stands
  at the `]` does what it would do at the `[`. So a loop can be re-entered from either end.
* `Structured.Ends.follows` — the machine follows a tree to its end, by induction on the run of
  the tree.
* `exists_ends_of_run` — a machine that finishes within its budget has followed the tree, by
  induction on the budget.
* `evaluate_iff_ends` — the answers of a loadable program are the ends of its structure.
-/

namespace TapeBreeder

/-! ## Agreement -/

/-- The data of a machine, without its position, are those of a store. -/
structure Machine.Agrees (m : Machine) (s : Store) : Prop where
  cursor : m.tape.cursor = s.cursor
  inTape : m.tape.cursor < m.tape.cells.size
  cells : ∀ k, (m.tape.cells.getD k 0).toNat = s.cells k
  pending : m.pending = s.unread
  printed : m.printed.reverse.map charOfCell = s.printed

/-- The same machine at another position. -/
def Machine.goTo (m : Machine) (position : Nat) : Machine :=
  { m with position }

namespace Machine.Agrees

variable {m : Machine} {s : Store}

theorem goTo (h : m.Agrees s) (position : Nat) : (m.goTo position).Agrees s :=
  ⟨h.cursor, h.inTape, h.cells, h.pending, h.printed⟩

/-- The cell under the cursor is the number that the store has there. -/
theorem toNat_read (h : m.Agrees s) : m.tape.read.toNat = s.current := by
  rw [Tape.read, Store.current, h.cells, h.cursor]

/-- So loops are decided in the same way on both sides. -/
theorem read_eq_zero_iff (h : m.Agrees s) : m.tape.read = 0 ↔ s.current = 0 := by
  rw [← h.toNat_read, ← UInt8.toNat_inj]
  rfl

theorem text_eq (h : m.Agrees s) : m.text = s.text := by
  rw [Machine.text, Store.text, h.printed]

/-- The two start out with the same data: a blank tape of one cell is an endless row of zeros. -/
theorem start (input : String) : (Machine.start input).Agrees (.start input) where
  cursor := rfl
  inTape := Nat.zero_lt_one
  cells k := by cases k <;> rfl
  pending := rfl
  printed := rfl

/-- Writing a cell is setting the number under the cursor. -/
theorem write (h : m.Agrees s) (value : UInt8) :
    Machine.Agrees { m with tape := m.tape.write value } (s.set value.toNat) where
  cursor := h.cursor
  inTape := by
    rw [Tape.write, Array.size_setIfInBounds]
    exact h.inTape
  cells k := by
    have hcell := h.cells k
    rw [Tape.write, Store.set]
    simp only [Array.getD_eq_getD_getElem?, Array.getElem?_setIfInBounds, ← h.cursor] at hcell ⊢
    by_cases hk : m.tape.cursor = k
    · subst hk
      rw [if_pos rfl, if_pos h.inTape, if_pos rfl]
      rfl
    · rw [if_neg hk, if_neg (Ne.symm hk)]
      exact hcell
  pending := h.pending
  printed := h.printed

/-- Moving right is the one move for which the tape may have to grow, which the store does not
notice. -/
theorem moveRight (h : m.Agrees s) :
    Machine.Agrees { m with tape := m.tape.moveRight } { s with cursor := s.cursor + 1 } where
  cursor := by
    unfold Tape.moveRight
    rw [← h.cursor]
    split <;> rfl
  inTape := by
    have hin := h.inTape
    unfold Tape.moveRight
    split
    · -- The cursor was on the last cell, so a cell has been added.
      show m.tape.cursor + 1 < (m.tape.cells.push 0).size
      rw [Array.size_push]
      omega
    · next hne =>
      show m.tape.cursor + 1 < m.tape.cells.size
      omega
  cells k := by
    unfold Tape.moveRight
    rw [← h.cells]
    split
    · -- The new cell is zero, as the endless tape is where nothing has been written.
      simp only [Array.getD_eq_getD_getElem?, Array.getElem?_push]
      split
      · next hk =>
        rw [Array.getElem?_eq_none (Nat.le_of_eq hk.symm)]
        rfl
      · rfl
    · rfl
  pending := h.pending
  printed := h.printed

end Machine.Agrees

/-! ## Steps -/

section

variable {code : Code} {m m' : Machine} {s : Store}

/-- A machine does to its data what the instruction does to the store. -/
theorem Machine.Agrees.step (h : m.Agrees s) (code : Code) (i : Instruction) :
    ∃ m' : Machine, code.step i.toSymbol m = .ok (m'.goTo (m.position + 1)) ∧
      m'.Agrees (s.perform i) := by
  cases i with
  -- Cells wrap around at 256 as the numbers of the store do.
  | increment =>
    refine ⟨{ m with tape := m.tape.write (m.tape.read + 1) }, rfl, ?_⟩
    have hwrite := h.write (m.tape.read + 1)
    rwa [UInt8.toNat_add, h.toNat_read] at hwrite
  | decrement =>
    refine ⟨{ m with tape := m.tape.write (m.tape.read - 1) }, rfl, ?_⟩
    have hwrite := h.write (m.tape.read - 1)
    rwa [UInt8.toNat_sub, h.toNat_read, Nat.add_comm] at hwrite
  | left =>
    refine ⟨{ m with tape := m.tape.moveLeft }, rfl, ?_⟩
    exact ⟨congrArg (· - 1) h.cursor, Nat.lt_of_le_of_lt (Nat.sub_le _ _) h.inTape, h.cells,
      h.pending, h.printed⟩
  | right => exact ⟨{ m with tape := m.tape.moveRight }, rfl, h.moveRight⟩
  | output =>
    refine ⟨{ m with printed := m.tape.read :: m.printed }, rfl, ?_⟩
    refine ⟨h.cursor, h.inTape, h.cells, h.pending, ?_⟩
    show (m.tape.read :: m.printed).reverse.map charOfCell = s.printed ++ [Char.ofNat s.current]
    rw [List.reverse_cons, List.map_append, h.printed, ← h.toNat_read]
    rfl
  | input =>
    rcases m with ⟨position, tape, pending, printed⟩
    have hunread : pending = s.unread := h.pending
    cases pending with
    | nil =>
      refine ⟨⟨position, tape.write 0, [], printed⟩, rfl, ?_⟩
      rw [Store.perform, ← hunread]
      exact h.write 0
    | cons c rest =>
      refine ⟨⟨position, tape.write (cellOfChar c), rest, printed⟩, rfl, ?_⟩
      rw [Store.perform, ← hunread]
      have hwrite := h.write (cellOfChar c)
      rw [cellOfChar, UInt8.toNat_ofNat'] at hwrite
      exact ⟨hwrite.cursor, hwrite.inTape, hwrite.cells, rfl, hwrite.printed⟩

/-- The five things that a bracket can do, each under its condition on the cell and on the jump
table. First, a `[` over a zero leads behind its partner. -/
theorem Code.step_open_jump {second : Nat} (hzero : m.tape.read = 0)
    (hjump : code.jumps.jump? m.position = some second) :
    code.step .loopOpen m = .ok (m.goTo (second + 1)) := by
  simp only [step, target, hzero, hjump, if_true]
  rfl

/-- Over anything else, a `[` enters the loop, whether or not it has a partner. -/
theorem Code.step_open_enter (code : Code) (hne : m.tape.read ≠ 0) :
    code.step .loopOpen m = .ok (m.goTo (m.position + 1)) := by
  simp only [step, hne, if_false]
  rfl

/-- A `[` over a zero that has no partner fails. -/
theorem Code.step_open_stuck (hzero : m.tape.read = 0)
    (hjump : code.jumps.jump? m.position = none) :
    code.step .loopOpen m = .error (.unmatchedOpen m.position) := by
  simp only [step, target, hzero, hjump, if_true]

/-- A `]` over anything but a zero leads behind its partner, into the loop again. -/
theorem Code.step_close_jump {first : Nat} (hne : m.tape.read ≠ 0)
    (hjump : code.jumps.jump? m.position = some first) :
    code.step .loopClose m = .ok (m.goTo (first + 1)) := by
  simp only [step, target, hne, hjump, if_true, ne_eq, not_false_eq_true]
  rfl

/-- Over a zero, a `]` leaves the loop. -/
theorem Code.step_close_leave (code : Code) (hzero : m.tape.read = 0) :
    code.step .loopClose m = .ok (m.goTo (m.position + 1)) := by
  simp only [step, hzero, if_false, ne_eq, not_true]
  rfl

/-! ## Runs -/

/-- A machine at a `[` with a zero under the cursor jumps behind its `]`. -/
theorem Machine.Agrees.run_open_jump {position second : Nat} (hm : m.Agrees s)
    (hzero : s.current = 0) (hopens : code.symbols[position]? = some .loopOpen)
    (hforth : code.jumps.jump? position = some second) (n : Nat) :
    code.run (n + 1) (m.goTo position) = code.run n (m.goTo (second + 1)) := by
  have hread : (m.goTo position).tape.read = 0 := hm.read_eq_zero_iff.mpr hzero
  exact Code.run_of_step hopens (Code.step_open_jump hread hforth) n

/-- A machine at a `[` without a zero under the cursor goes on, whether the `[` is closed or
not. -/
theorem Machine.Agrees.run_open_enter {position : Nat} (hm : m.Agrees s) (hne : s.current ≠ 0)
    (hopens : code.symbols[position]? = some .loopOpen) (n : Nat) :
    code.run (n + 1) (m.goTo position) = code.run n (m.goTo (position + 1)) := by
  have hread : (m.goTo position).tape.read ≠ 0 := mt hm.read_eq_zero_iff.mp hne
  exact Code.run_of_step hopens (Code.step_open_enter code hread) n

/-- A machine at a `[` that is never closed fails there with a zero under the cursor. -/
theorem Machine.Agrees.run_open_stuck {position : Nat} (hm : m.Agrees s) (hzero : s.current = 0)
    (hopens : code.symbols[position]? = some .loopOpen)
    (hnone : code.jumps.jump? position = none) (n : Nat) :
    code.run (n + 1) (m.goTo position) = ⟨.failed (.unmatchedOpen position), n⟩ := by
  have hread : (m.goTo position).tape.read = 0 := hm.read_eq_zero_iff.mpr hzero
  exact Code.run_of_error hopens (Code.step_open_stuck hread hnone) n

/-- A machine at the `]` of a loop does what it would do at the `[`. -/
theorem Code.run_goTo_second {first second : Nat} (hloop : code.IsLoopAt first second)
    (m : Machine) (n : Nat) : code.run n (m.goTo second) = code.run n (m.goTo first) := by
  have hopens : code.symbols[(m.goTo first).position]? = some .loopOpen := hloop.opens
  have hcloses : code.symbols[(m.goTo second).position]? = some .loopClose := hloop.closes
  cases n with
  | zero => rw [run, run, hopens, hcloses]
  | succ n =>
    by_cases hzero : m.tape.read = 0
    · rw [run_of_step hopens (step_open_jump hzero hloop.forth),
        run_of_step hcloses (step_close_leave code hzero)]
      rfl
    · rw [run_of_step hopens (step_open_enter code hzero),
        run_of_step hcloses (step_close_jump hzero hloop.back)]
      rfl

end

/-! ## From trees to machines -/

/-- The machine gets to the position `goal` with the data of the store with which a tree halts, or
fails where the tree gets stuck. -/
def Code.Follows (code : Code) (goal : Nat) (m : Machine) : Ending → Prop
  | .halted s => ∃ (k : Nat) (m' : Machine), m'.Agrees s ∧
    ∀ n, code.run (n + k) m = code.run n (m'.goTo goal)
  | .stuck p => ∃ k, ∀ n, code.run (n + k) m = ⟨.failed (.unmatchedOpen p), n⟩

/-- What follows after some symbols follows from before them, with these added to the budget. -/
theorem Code.Follows.of_run {code : Code} {goal k : Nat} {m m' : Machine} {e : Ending}
    (hrun : ∀ n, code.run (n + k) m = code.run n m') (h : code.Follows goal m' e) :
    code.Follows goal m e := by
  cases e with
  | halted s =>
    rcases h with ⟨l, m'', hagrees, hrest⟩
    refine ⟨l + k, m'', hagrees, ?_⟩
    intro n
    rw [← Nat.add_assoc, hrun, hrest]
  | stuck p =>
    rcases h with ⟨l, hrest⟩
    refine ⟨l + k, ?_⟩
    intro n
    rw [← Nat.add_assoc, hrun, hrest]

/-- The machine follows a tree to its end. -/
theorem Structured.Ends.follows {t : Structured} {s : Store} {e : Ending} (h : t.Ends s e)
    {code : Code} {position : Nat} {m : Machine} (hlaid : t.IsLaidOut code position)
    (hm : m.Agrees s) : code.Follows (position + t.size) (m.goTo position) e := by
  induction h generalizing position m with
  | done => exact ⟨0, m, hm, fun n => rfl⟩
  | perform _ ih =>
    rcases hlaid with ⟨hsymbol, hrest⟩
    rcases (hm.goTo position).step code _ with ⟨m₁, hstep, hagrees⟩
    rw [add_size_perform]
    exact (ih hrest hagrees).of_run (Code.run_of_step hsymbol hstep)
  | loopDone hzero _ ih =>
    rcases hlaid with ⟨hloop, -, hrest⟩
    rw [add_size_loop]
    exact (ih hrest hm).of_run (hm.run_open_jump hzero hloop.opens hloop.forth)
  | loopAgain hne _ _ ihbody ihagain =>
    rcases id hlaid with ⟨hloop, hbody, -⟩
    rcases ihbody hbody hm with ⟨k, m₁, hagrees, hrun⟩
    -- One symbol for the `[`, and `k` for the body.
    apply (ihagain hlaid hagrees).of_run (k := k + 1)
    intro n
    -- The body has brought the machine to the `]`, which is as good as the `[`.
    rw [← Code.run_goTo_second hloop m₁, Nat.add_right_comm, ← hrun, ← Nat.add_assoc]
    exact hm.run_open_enter hne hloop.opens (n + k)
  | loopStuck hne _ ih =>
    -- The body fails, and the code behind the loop is never reached.
    rcases hlaid with ⟨hloop, hbody, -⟩
    rcases ih hbody hm with ⟨k, hrun⟩
    refine ⟨k + 1, ?_⟩
    intro n
    rw [← hrun, ← Nat.add_assoc]
    exact hm.run_open_enter hne hloop.opens (n + k)
  | unclosedPassed hne _ ih =>
    rcases hlaid with ⟨-, hsymbol, -, hrest⟩
    rw [add_size_unclosed]
    exact (ih hrest hm).of_run (hm.run_open_enter hne hsymbol)
  | @unclosedStuck p rest s hzero =>
    rcases hlaid with ⟨rfl, hsymbol, hjump, -⟩
    exact ⟨1, hm.run_open_stuck hzero hsymbol hjump⟩

/-! ## From machines to trees -/

/-- What a run of at most `n` symbols shows of an end: the machine has got to the position `goal`
with budget left, or has failed. -/
def Code.Shows (code : Code) (goal n : Nat) (m : Machine) : Ending → Prop
  | .halted s => ∃ (k : Nat) (m' : Machine), k ≤ n ∧ m'.Agrees s ∧
    code.run n m = code.run k (m'.goTo goal)
  | .stuck p => (code.run n m).outcome = .failed (.unmatchedOpen p)

/-- What a rest of the budget shows, the whole budget shows. -/
theorem Code.Shows.of_run {code : Code} {goal n k : Nat} {m m' : Machine} {e : Ending}
    (hle : k ≤ n) (hrun : code.run n m = code.run k m') (h : code.Shows goal k m' e) :
    code.Shows goal n m e := by
  cases e with
  | halted s =>
    rcases h with ⟨l, m'', hl, hagrees, hrest⟩
    exact ⟨l, m'', Nat.le_trans hl hle, hagrees, hrun.trans hrest⟩
  | stuck p =>
    rw [Shows, hrun]
    exact h

/-- A machine that finishes within its budget has followed the tree to an end. -/
theorem exists_ends_of_run {code : Code} {n position : Nat} {t : Structured} {m : Machine}
    {s : Store} (hlaid : t.IsLaidOut code position) (hm : m.Agrees s)
    (hrun : (code.run n (m.goTo position)).outcome ≠ .outOfBudget) :
    ∃ e, t.Ends s e ∧ code.Shows (position + t.size) n (m.goTo position) e := by
  -- By induction on the budget: each turn of a loop costs some, while the tree stays the same.
  induction n using Nat.strongRecOn generalizing position t m s with
  | ind n ih =>
    cases t with
    | done => exact ⟨.halted s, .done, n, m, Nat.le_refl n, hm, rfl⟩
    | perform i rest =>
      rcases hlaid with ⟨hsymbol, hrest⟩
      rcases Code.exists_succ_of_run hsymbol hrun with ⟨k, rfl⟩
      rcases (hm.goTo position).step code i with ⟨m₁, hstep, hagrees⟩
      have hfirst := Code.run_of_step hsymbol hstep k
      rw [hfirst] at hrun
      rcases ih k (Nat.lt_succ_self k) hrest hagrees hrun with ⟨e, hends, hshows⟩
      rw [Structured.add_size_perform]
      exact ⟨e, .perform hends, hshows.of_run (Nat.le_succ k) hfirst⟩
    | loop body rest =>
      rcases id hlaid with ⟨hloop, hbody, hrest⟩
      rcases Code.exists_succ_of_run hloop.opens hrun with ⟨k, rfl⟩
      by_cases hzero : s.current = 0
      · -- The loop is over, or has never been entered: the machine jumps behind it.
        have hfirst := hm.run_open_jump hzero hloop.opens hloop.forth k
        rw [hfirst] at hrun
        rcases ih k (Nat.lt_succ_self k) hrest hm hrun with ⟨e, hends, hshows⟩
        rw [Structured.add_size_loop]
        exact ⟨e, .loopDone hzero hends, hshows.of_run (Nat.le_succ k) hfirst⟩
      · -- One turn of the loop, and then, with less budget, the loop again.
        have hfirst := hm.run_open_enter hzero hloop.opens k
        rw [hfirst] at hrun
        rcases ih k (Nat.lt_succ_self k) hbody hm hrun with ⟨e, hends, hshows⟩
        cases e with
        | stuck p =>
          exact ⟨.stuck p, .loopStuck hzero hends, (congrArg Run.outcome hfirst).trans hshows⟩
        | halted s' =>
          rcases hshows with ⟨l, m₁, hl, hagrees, hturn⟩
          -- The body has brought the machine to the `]`, which is as good as the `[`.
          have hall : code.run (k + 1) (m.goTo position) = code.run l (m₁.goTo position) := by
            rw [← Code.run_goTo_second hloop m₁, Nat.add_right_comm]
            exact hfirst.trans hturn
          rw [← hfirst, hall] at hrun
          rcases ih l (Nat.lt_succ_of_le hl) hlaid hagrees hrun with ⟨e, hends', hshows⟩
          exact ⟨e, .loopAgain hzero hends hends', hshows.of_run (Nat.le_succ_of_le hl) hall⟩
    | unclosed p rest =>
      rcases hlaid with ⟨rfl, hsymbol, hjump, hrest⟩
      rcases Code.exists_succ_of_run hsymbol hrun with ⟨k, rfl⟩
      by_cases hzero : s.current = 0
      · refine ⟨.stuck p, .unclosedStuck hzero, ?_⟩
        rw [Code.Shows, hm.run_open_stuck hzero hsymbol hjump]
      · have hfirst := hm.run_open_enter hzero hsymbol k
        rw [hfirst] at hrun
        rcases ih k (Nat.lt_succ_self k) hrest hm hrun with ⟨e, hends, hshows⟩
        rw [Structured.add_size_unclosed]
        exact ⟨e, .unclosedPassed hzero hends, hshows.of_run (Nat.le_succ k) hfirst⟩

/-! ## Answers -/

/-- How a run ends that ends as the structure of its program does. -/
def Ending.outcome : Ending → Outcome
  | .halted s => .halted s.text
  | .stuck p => .failed (.unmatchedOpen p)

namespace Program

/-- A machine behind the last symbol of the code halts. -/
theorem run_at_end {code : Code} {goal : Nat} {s : Store} {m : Machine}
    (hgoal : goal = code.symbols.size) (hm : m.Agrees s) (n : Nat) :
    code.run n (m.goTo goal) = ⟨.halted s.text, n⟩ := by
  have hend : code.symbols[(m.goTo goal).position]? = none :=
    Array.getElem?_eq_none (Nat.le_of_eq hgoal.symm)
  rw [Code.run_of_end hend, (hm.goTo goal).text_eq]

/-- The runs of a program within some budget end as its structure does. -/
theorem exists_run_iff {p : Program} {t : Structured} (ht : p.HasStructure t) (input : String)
    {o : Outcome} (ho : o ≠ .outOfBudget) :
    (∃ budget, (p.run input budget).outcome = o) ↔
      ∃ e, t.Ends (.start input) e ∧ e.outcome = o := by
  rcases ht.exists_load with ⟨code, hload, hsize, hlaid⟩
  have hrun : ∀ n, p.run input n = code.run n ((Machine.start input).goTo 0) := by
    intro n
    rw [run, hload]
    rfl
  -- The end of the tree is the end of the code, where a machine halts.
  have hgoal : 0 + t.size = code.symbols.size := by rw [hsize, Nat.zero_add]
  constructor
  · rintro ⟨n, rfl⟩
    rw [hrun] at ho ⊢
    rcases exists_ends_of_run hlaid (.start input) ho with ⟨e, hends, hshows⟩
    refine ⟨e, hends, ?_⟩
    cases e with
    | halted s =>
      rcases hshows with ⟨k, m, -, hagrees, hturn⟩
      rw [hturn, run_at_end hgoal hagrees]
      rfl
    | stuck p => exact hshows.symm
  · rintro ⟨e, hends, rfl⟩
    have hfollows := hends.follows hlaid (.start input)
    cases e with
    | halted s =>
      rcases hfollows with ⟨k, m, hagrees, hturn⟩
      refine ⟨0 + k, ?_⟩
      rw [hrun, hturn, run_at_end hgoal hagrees]
      rfl
    | stuck p =>
      rcases hfollows with ⟨k, hturn⟩
      refine ⟨0 + k, ?_⟩
      rw [hrun, hturn]
      rfl

end Program

/-- A clock under which every time limit admits so many symbols. -/
def Clock.ofBudget (symbols : Nat) : Clock where
  symbolsWithin _ := symbols
  elapsed _ _ _ := 0
  symbolsWithin_mono _ := Nat.le_refl symbols

/-- A program whose jump table can be built has one structure; within some budget it prints what
its structure prints before it halts, and fails at the unclosed `[` where its structure gets
stuck. -/
theorem evaluate_iff_ends (p : Program) (input : String) (milliseconds : UInt64)
    (hbuild : ∃ table, JumpTable.build p.symbols = .ok table) :
    ∃ t, (∀ u, p.HasStructure u ↔ u = t) ∧
      (∀ output, (∃ budget, p.evaluate (.ofBudget budget) input milliseconds = .ok output) ↔
        ∃ s, t.Ends (.start input) (.halted s) ∧ s.text = output) ∧
      (∀ position, (∃ budget, p.evaluate (.ofBudget budget) input milliseconds =
          .error (.brackets (.unmatchedOpen position))) ↔
        t.Ends (.start input) (.stuck position)) := by
  have hloadable : p.isLoadable := Program.isLoadable_iff_exists_build.mpr hbuild
  rcases Program.existsUnique_structure hloadable with ⟨t, ht⟩
  have hstructure : p.HasStructure t := (ht t).mpr rfl
  refine ⟨t, ht, ?_, ?_⟩
  · intro output
    simp only [Program.evaluate_eq_ok_iff, Clock.ofBudget]
    rw [Program.exists_run_iff hstructure input (by simp)]
    constructor
    · rintro ⟨e, hends, he⟩
      cases e with
      | halted s => exact ⟨s, hends, Outcome.halted.inj he⟩
      | stuck p => cases he
    · rintro ⟨s, hends, rfl⟩
      exact ⟨.halted s, hends, rfl⟩
  · intro position
    simp only [Program.evaluate, Outcome.answer_eq_brackets_iff, Clock.ofBudget]
    rw [Program.exists_run_iff hstructure input (by simp)]
    constructor
    · rintro ⟨e, hends, he⟩
      cases e with
      | halted s => cases he
      | stuck p =>
        obtain rfl := BracketError.unmatchedOpen.inj (Outcome.failed.inj he)
        exact hends
    · intro hends
      exact ⟨.stuck position, hends, rfl⟩

/-- Whether the unclosed `[` of `,[[-].` is passed depends on what is read: at a zero the program
gets stuck there, and otherwise it goes on with the loop. -/
theorem evaluate_iff_ends_unclosed :
    (∃ table, JumpTable.build (Program.parse ",[[-].").symbols = .ok table) ∧
      ∃ t, (∀ u, (Program.parse ",[[-].").HasStructure u ↔ u = t) ∧
        (∃ s, t.Ends (.start "\x02") (.halted s) ∧ s.text = "\x00") ∧
        t.Ends (.start "") (.stuck 1) := by
  have hbuild : ∃ table, JumpTable.build (Program.parse ",[[-].").symbols = .ok table :=
    ⟨_, rfl⟩
  have hprints :
      (Program.parse ",[[-].").evaluate (.ofBudget 8) "\x02" 10 = .ok "\x00" := by
    decide
  have hfails : (Program.parse ",[[-].").evaluate (.ofBudget 8) "" 10 =
      .error (.brackets (.unmatchedOpen 1)) := by
    decide
  rcases evaluate_iff_ends (Program.parse ",[[-].") "\x02" 10 hbuild with ⟨t, ht, hhalts, -⟩
  rcases evaluate_iff_ends (Program.parse ",[[-].") "" 10 hbuild with ⟨t', ht', -, hstuck⟩
  -- Both are the structure of the one program.
  obtain rfl : t' = t := (ht t').mp ((ht' t').mpr rfl)
  exact ⟨hbuild, t', ht', (hhalts _).mp ⟨8, hprints⟩, (hstuck 1).mp ⟨8, hfails⟩⟩

end TapeBreeder
