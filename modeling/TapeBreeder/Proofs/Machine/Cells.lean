import TapeBreeder.Proofs.Machine.Budget

/-!
# What machines read and print

A machine takes in its input cell by cell, each character reduced to its low byte, and zeros behind
the last one. So all that a run knows of its input are the cells that it has read, and two inputs
that agree on them cannot be told apart. What it prints are cells too, each shown as a character.

* `cellStream` — the cells that pending characters amount to.
* `Code.reads`, `Program.reads` — how many of them a run reads.
* `Code.run_withPending` — a run on other characters, which agree on the cells that are read.
* `Program.toNat_le_of_evaluate` — no printed character is above U+00FF.
* `evaluate_of_cells_agree` — the answers of a program to two inputs.
-/

namespace TapeBreeder

/-! ## Characters as cells -/

/-- The cells that pending characters amount to, one for each time that one is read. -/
def cellStream (pending : List Char) (i : Nat) : UInt8 :=
  (pending.map cellOfChar).getD i 0

/-- Reading takes the first cell off the stream, and a stream that is at its end stays there. -/
theorem cellStream_tail (pending : List Char) (i : Nat) :
    cellStream pending.tail i = cellStream pending (i + 1) := by
  cases pending with
  | nil => rfl
  | cons c rest => rfl

/-- What stands behind does not change the cells in front, so characters that have not been read can
be replaced. -/
theorem cellStream_append_of_lt {before : List Char} {i : Nat} (h : i < before.length)
    (rest : List Char) : cellStream (before ++ rest) i = cellStream before i := by
  unfold cellStream
  rw [List.getD_eq_getElem?_getD, List.getD_eq_getElem?_getD, List.getElem?_map, List.getElem?_map,
    List.getElem?_append_left h]

/-- Characters that amount to zeros cannot be told from the end of the input. -/
theorem cellStream_append_of_zero {padding : List Char}
    (h : ∀ c ∈ padding, cellOfChar c = 0) (pending : List Char) :
    cellStream (pending ++ padding) = cellStream pending := by
  -- The padding yields zeros, and so does the end of the input.
  have hzero : ∀ i, cellStream padding i = 0 := by
    intro i
    unfold cellStream
    rw [List.getD_eq_getElem?_getD, List.getElem?_map]
    cases hc : padding[i]? with
    | none => rfl
    | some c => exact h c (List.mem_of_getElem? hc)
  funext i
  induction pending generalizing i with
  | nil => exact hzero i
  | cons c rest ih =>
    cases i with
    | zero => rfl
    | succ i => exact ih i

/-- A cell holds the low byte of a code point. Other characters than U+0000 are read as zero as
well. -/
theorem cellOfChar_eq_zero_iff {c : Char} : cellOfChar c = 0 ↔ c.toNat % 256 = 0 := by
  rw [← UInt8.toNat_inj, cellOfChar, UInt8.toNat_ofNat']
  rfl

/-! ## Steps on other characters -/

/-- The same machine with other characters still to be read. -/
def Machine.withPending (m : Machine) (pending : List Char) : Machine :=
  { m with pending }

namespace Code

variable {code : Code} {symbol : Symbol} {m m' : Machine} {pending : List Char}

/-- Reading stores the first cell of the stream and drops its character, if there is one. -/
theorem step_input (code : Code) (m : Machine) : code.step .input m =
    .ok ⟨m.position + 1, m.tape.write (cellStream m.pending 0), m.pending.tail, m.printed⟩ := by
  rcases m with ⟨position, tape, pending, printed⟩
  cases pending with
  | nil => rfl
  | cons c rest => rfl

/-- Reading tells two inputs apart by their first cells only, and takes one character off each. -/
theorem step_input_withPending (h : cellStream pending 0 = cellStream m.pending 0) :
    code.step .input (m.withPending pending) =
      (code.step .input m).map (·.withPending pending.tail) := by
  rw [step_input, step_input]
  show Except.ok (Machine.mk (m.position + 1) (m.tape.write (cellStream pending 0)) _ _) = _
  rw [h]
  rfl

/-- The other symbols do not look at the input. -/
theorem step_withPending (h : symbol ≠ .input) (m : Machine) (pending : List Char) :
    code.step symbol (m.withPending pending) =
      (code.step symbol m).map (·.withPending pending) := by
  rcases m with ⟨position, tape, old, printed⟩
  show code.step symbol ⟨position, tape, pending, printed⟩ = _
  cases symbol with
  | input => exact absurd rfl h
  -- A bracket looks at the cell and at its target, neither of which comes from the input.
  | loopOpen =>
    simp only [step]
    split
    · cases code.target position .unmatchedOpen with
      | ok partner => rfl
      | error fault => rfl
    · rfl
  | loopClose =>
    simp only [step]
    split
    · cases code.target position .unmatchedClose with
      | ok partner => rfl
      | error fault => rfl
    · rfl
  | _ => rfl

/-- Symbols other than `,` leave all characters pending. -/
theorem pending_step (h : symbol ≠ .input) (hstep : code.step symbol m = .ok m') :
    m'.pending = m.pending := by
  -- With its own characters the machine is the same.
  have hsame : code.step symbol m = (code.step symbol m).map (·.withPending m.pending) :=
    step_withPending h m m.pending
  rw [hstep] at hsame
  have hm : m' = m'.withPending m.pending := Except.ok.inj hsame
  rw [hm]
  rfl

/-! ## Runs on other characters -/

/-- The number of characters, present or not, that a run reads within a budget. -/
def reads (code : Code) : (budget : Nat) → Machine → Nat
  | 0, _ => 0
  | budget + 1, m =>
    match code.symbols[m.position]? with
    | none => 0
    | some symbol =>
      (if symbol = .input then 1 else 0) +
        match code.step symbol m with
        | .error _ => 0
        | .ok m => code.reads budget m

theorem reads_of_step (hsymbol : code.symbols[m.position]? = some symbol)
    (hstep : code.step symbol m = .ok m') (n : Nat) :
    code.reads (n + 1) m = (if symbol = .input then 1 else 0) + code.reads n m' := by
  rw [reads, hsymbol]
  simp only [hstep]

/-- A run depends on the characters that are pending only through the cells that it reads. -/
theorem run_withPending {budget : Nat}
    (h : ∀ i < code.reads budget m, cellStream pending i = cellStream m.pending i) :
    code.run budget (m.withPending pending) = code.run budget m := by
  -- The two machines differ in what is pending only, and they stay in step.
  induction budget generalizing m pending with
  | zero =>
    rw [run, run]
    rfl
  | succ budget ih =>
    cases hsymbol : code.symbols[m.position]? with
    | none =>
      have hend : code.symbols[(m.withPending pending).position]? = none := hsymbol
      rw [run_of_end hsymbol, run_of_end hend]
      rfl
    | some symbol =>
      have hsymbol' : code.symbols[(m.withPending pending).position]? = some symbol := hsymbol
      by_cases hinput : symbol = .input
      · subst hinput
        rw [reads_of_step hsymbol (step_input code m), if_pos rfl] at h
        have hread := step_input code m
        have hother : code.step .input (m.withPending pending) =
            (code.step .input m).map (·.withPending pending.tail) :=
          step_input_withPending (h 0 (by omega))
        rw [hread] at hother
        rw [run_of_step hsymbol hread, run_of_step hsymbol' hother]
        -- What is read next are the streams behind their first cells.
        apply ih
        intro i hi
        rw [cellStream_tail, cellStream_tail]
        exact h (i + 1) (by omega)
      · have hother : code.step symbol (m.withPending pending) =
            (code.step symbol m).map (·.withPending pending) := step_withPending hinput m pending
        cases hstep : code.step symbol m with
        | error fault =>
          rw [hstep] at hother
          rw [run_of_error hsymbol hstep, run_of_error hsymbol' hother]
        | ok m' =>
          rw [hstep] at hother
          rw [run_of_step hsymbol hstep, run_of_step hsymbol' hother]
          rw [reads_of_step hsymbol hstep, if_neg hinput, Nat.zero_add] at h
          apply ih
          rw [pending_step hinput hstep]
          exact h

end Code

namespace Program

variable {clock : Clock} {p : Program} {input other : String} {milliseconds : UInt64}

/-- The number of characters, present or not, that a program reads within a budget. -/
def reads (p : Program) (input : String) (budget : Nat) : Nat :=
  match p.load with
  | .error _ => 0
  | .ok code => code.reads budget (.start input)

/-- `Code.run_withPending` for whole programs: with the other input, the machine starts out the same
but for what is pending. -/
theorem run_of_reads_agree {budget : Nat}
    (h : ∀ i < p.reads input budget, cellStream other.toList i = cellStream input.toList i) :
    p.run other budget = p.run input budget := by
  unfold run
  unfold reads at h
  cases hload : p.load with
  | error fault => rfl
  | ok code =>
    rw [hload] at h
    have hother : Machine.start other = (Machine.start input).withPending other.toList := rfl
    simp only [hother]
    exact Code.run_withPending h

theorem evaluate_of_reads_agree
    (h : ∀ i < p.reads input (clock.symbolsWithin milliseconds),
      cellStream other.toList i = cellStream input.toList i) :
    p.evaluate clock other milliseconds = p.evaluate clock input milliseconds := by
  rw [evaluate, evaluate, run_of_reads_agree h]

/-- Inputs with the same stream of cells get the same answers from every program. -/
theorem evaluate_of_cellStream_eq (h : cellStream other.toList = cellStream input.toList) :
    p.evaluate clock other milliseconds = p.evaluate clock input milliseconds := by
  apply evaluate_of_reads_agree
  intro i _
  rw [h]

end Program

/-! ## Printed characters -/

/-- Bytes are code points, so a printed character has the number of its cell. -/
theorem toNat_charOfCell (cell : UInt8) : (charOfCell cell).toNat = cell.toNat := by
  have hvalid : cell.toNat.isValidChar := by
    have hlt := cell.toNat_lt
    left
    omega
  rw [charOfCell, Char.ofNat, dif_pos hvalid]
  rfl

/-- Everything printed comes from cells, which have no room for code points above 255. -/
theorem Machine.toNat_le_of_mem_text {m : Machine} {c : Char} (h : c ∈ m.text.toList) :
    c.toNat ≤ 255 := by
  rw [text, String.toList_ofList, List.mem_map] at h
  rcases h with ⟨cell, -, rfl⟩
  have hlt := cell.toNat_lt
  rw [toNat_charOfCell]
  omega

/-- What a run prints is the text of some machine. -/
theorem Code.exists_text_of_run {code : Code} {budget : Nat} {m : Machine} {output : String}
    (h : (code.run budget m).outcome = .halted output) : ∃ m' : Machine, output = m'.text := by
  induction budget generalizing m with
  | zero =>
    cases hsymbol : code.symbols[m.position]? with
    | none =>
      rw [run_of_end hsymbol] at h
      exact ⟨m, (Outcome.halted.inj h).symm⟩
    | some symbol =>
      rw [run, hsymbol] at h
      cases h
  | succ budget ih =>
    cases hsymbol : code.symbols[m.position]? with
    | none =>
      rw [run_of_end hsymbol] at h
      exact ⟨m, (Outcome.halted.inj h).symm⟩
    | some symbol =>
      cases hstep : code.step symbol m with
      | error fault =>
        rw [run_of_error hsymbol hstep] at h
        cases h
      | ok m' =>
        rw [run_of_step hsymbol hstep] at h
        exact ih h

/-- A program that fails to load prints nothing, so all that is printed is the text of a machine. -/
theorem Program.toNat_le_of_evaluate {clock : Clock} {p : Program} {input output : String}
    {milliseconds : UInt64} (h : p.evaluate clock input milliseconds = .ok output) :
    ∀ c ∈ output.toList, c.toNat ≤ 255 := by
  intro c hc
  have hrun := evaluate_eq_ok_iff.mp h
  unfold run at hrun
  split at hrun
  · cases hrun
  · rcases Code.exists_text_of_run hrun with ⟨m, rfl⟩
    exact Machine.toNat_le_of_mem_text hc

/-! ## Answers -/

/-- All that the answer of a program says about its input are the cells that have been read. Two
inputs get the same answer within the same time if they agree on the cells that are read from one of
them. So characters whose code point is a multiple of 256 may be added at the end of an input, and
whatever has not been read may be replaced. -/
theorem evaluate_of_cells_agree (clock : Clock) (p : Program) (input : String)
    (milliseconds : UInt64) :
    (∀ other : String,
      (∀ i < p.reads input (clock.symbolsWithin milliseconds),
        cellStream other.toList i = cellStream input.toList i) →
      p.evaluate clock other milliseconds = p.evaluate clock input milliseconds) ∧
    (∀ padding : String, (∀ c ∈ padding.toList, c.toNat % 256 = 0) →
      p.evaluate clock (input ++ padding) milliseconds = p.evaluate clock input milliseconds) ∧
    (∀ before unread replacement : String, input = before ++ unread →
      p.reads input (clock.symbolsWithin milliseconds) ≤ before.length →
      p.evaluate clock (before ++ replacement) milliseconds =
        p.evaluate clock input milliseconds) := by
  refine ⟨?_, ?_, ?_⟩
  · intro other h
    exact Program.evaluate_of_reads_agree h
  · intro padding hpadding
    apply Program.evaluate_of_cellStream_eq
    have hzero : ∀ c ∈ padding.toList, cellOfChar c = 0 := by
      intro c hc
      exact cellOfChar_eq_zero_iff.mpr (hpadding c hc)
    rw [String.toList_append, cellStream_append_of_zero hzero]
  · rintro before unread replacement rfl hreads
    apply Program.evaluate_of_reads_agree
    intro i hi
    -- Only cells in front of the replacement are read, and there the two inputs agree.
    have hlt : i < before.toList.length := Nat.lt_of_lt_of_le hi hreads
    rw [String.toList_append, String.toList_append, cellStream_append_of_lt hlt,
      cellStream_append_of_lt hlt]

/-- A program that echoes two characters takes `Ţ` and `š` for `b` and `a`, and never looks at what
comes behind them. -/
theorem evaluate_of_cells_agree_wide :
    (∀ i < (Program.parse ",.,.").reads "ba" (Clock.steady.symbolsWithin 1),
      cellStream "Ţšx".toList i = cellStream "ba".toList i) ∧
    (∀ c ∈ "Ā\x00".toList, c.toNat % 256 = 0) ∧
    (Program.parse ",.,.").evaluate .steady "Ţšx" 1 = .ok "ba" ∧
    (Program.parse ",.,.").evaluate .steady ("ba" ++ "Ā\x00") 1 = .ok "ba" := by
  have hprints : (Program.parse ",.,.").evaluate .steady "ba" 1 = .ok "ba" :=
    Program.evaluate_eq_ok_iff.mpr (by decide +kernel)
  have hcells : ∀ i < (Program.parse ",.,.").reads "ba" (Clock.steady.symbolsWithin 1),
      cellStream "Ţšx".toList i = cellStream "ba".toList i := by decide +kernel
  have hpadding : ∀ c ∈ "Ā\x00".toList, c.toNat % 256 = 0 := by
    intro c hc
    have hchars : c = 'Ā' ∨ c = '\x00' := by simpa using hc
    rcases hchars with rfl | rfl <;> rfl
  refine ⟨hcells, hpadding, ?_, ?_⟩
  · rw [(evaluate_of_cells_agree .steady (Program.parse ",.,.") "ba" 1).1 "Ţšx" hcells, hprints]
  · rw [(evaluate_of_cells_agree .steady (Program.parse ",.,.") "ba" 1).2.1 _ hpadding, hprints]

end TapeBreeder
