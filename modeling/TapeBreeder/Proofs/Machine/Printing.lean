import TapeBreeder.Proofs.Machine.Echo
import TapeBreeder.Proofs.Machine.Faults
import TapeBreeder.Proofs.Structured.Refinement

/-!
# Texts that can be printed

A program prints cells, so no character that it prints is above U+00FF. Every text of characters up
to U+00FF is printed by some program, whatever the input is: the program works on one cell, which it
counts up from each character to the next, past 255 to zero if need be.

* `printing`, `Program.printer` — the symbols that print a row of cells, and a text.
* `Code.run_increments`, `Code.run_printing` — what a machine does when it comes across them, by
  induction on the count and on the row.
* `Program.run_printer` — the printer of a text halts with it, after one round through its symbols.
* `printable_iff` — which texts can be printed.
-/

namespace TapeBreeder

/-! ## Printers -/

/-- The symbols that print a row of cells from one cell, which holds `cell` before. -/
def printing (cell : UInt8) : List UInt8 → List Symbol
  | [] => []
  | value :: rest =>
    List.replicate (value - cell).toNat .increment ++ .output :: printing value rest

/-- A program that prints a text. -/
def Program.printer (text : String) : Program :=
  ⟨printing 0 (text.toList.map cellOfChar)⟩

/-- A printer goes through its symbols once, without a loop. -/
theorem isBracket_of_mem_printing {cell : UInt8} {values : List UInt8} :
    ∀ s ∈ printing cell values, s.isBracket = false := by
  induction values generalizing cell with
  | nil => simp [printing]
  | cons value rest ih =>
    rw [printing, List.forall_mem_append, List.forall_mem_cons]
    refine ⟨?_, rfl, ih⟩
    intro s hs
    rw [List.eq_of_mem_replicate hs]
    rfl

/-- Without brackets there is nothing to match, so every printer can be loaded. -/
theorem Program.exists_load_printer (text : String) :
    ∃ code, (printer text).load = .ok code ∧ code.symbols = (printer text).symbols.toArray := by
  have hbalanced : Balanced (printer text).symbols := balanced_of_plain isBracket_of_mem_printing
  rcases isLoadable_iff_exists_build.mp (isLoadable_of_balanced hbalanced) with ⟨table, hbuild⟩
  exact ⟨_, load_eq_ok_iff.mpr ⟨table, hbuild, rfl⟩, rfl⟩

/-! ## Runs -/

namespace Code

variable {code : Code} {position : Nat} {rest : List Symbol}

/-- The first of the symbols from a position on stands at this position, and the others behind. -/
theorem getElem?_of_drop {s : Symbol} (h : code.symbols.toList.drop position = s :: rest) :
    code.symbols[position]? = some s ∧ code.symbols.toList.drop (position + 1) = rest := by
  constructor
  · rw [← Array.getElem?_toList, ← List.head?_drop, h]
    rfl
  · rw [← List.tail_drop, h]
    rfl

/-- So many increments add their number to the cell, modulo 256. -/
theorem run_increments {n : Nat}
    (hrow : code.symbols.toList.drop position = List.replicate n .increment ++ rest)
    (cell : UInt8) (pending : List Char) (printed : List UInt8) (extra : Nat) :
    code.run (extra + n) ⟨position, .single cell, pending, printed⟩ =
      code.run extra ⟨position + n, .single (cell + UInt8.ofNat n), pending, printed⟩ := by
  induction n generalizing position cell with
  | zero =>
    have hcell : cell + UInt8.ofNat 0 = cell := UInt8.add_zero cell
    rw [hcell]
    rfl
  | succ n ih =>
    rw [List.replicate_succ, List.cons_append] at hrow
    rcases getElem?_of_drop hrow with ⟨hsymbol, hbehind⟩
    have hstep : code.step .increment ⟨position, .single cell, pending, printed⟩ =
        .ok ⟨position + 1, .single (cell + 1), pending, printed⟩ := rfl
    have hcell : cell + 1 + UInt8.ofNat n = cell + UInt8.ofNat (n + 1) := by
      rw [UInt8.ofNat_add, UInt8.add_assoc, UInt8.add_comm 1]
      rfl
    -- The first increment is executed, and the others begin with a cell that is larger by one.
    rw [← Nat.add_assoc, run_of_step hsymbol hstep, ih hbehind, hcell, Nat.add_right_comm,
      Nat.add_assoc]

/-- A row of cells is printed with one step for each symbol, and then the code is at its end. -/
theorem run_printing {values : List UInt8} {cell : UInt8}
    (hrow : code.symbols.toList.drop position = printing cell values) (pending : List Char)
    (printed : List UInt8) (extra : Nat) :
    code.run (extra + (printing cell values).length)
        ⟨position, .single cell, pending, printed⟩ =
      ⟨.halted (String.ofList (printed.reverse.map charOfCell ++ values.map charOfCell)),
        extra⟩ := by
  induction values generalizing position cell printed with
  | nil =>
    have hend : code.symbols[position]? = none := by
      rw [← Array.getElem?_toList, ← List.head?_drop, hrow]
      rfl
    rw [printing, List.length_nil, Nat.add_zero, run_of_end hend, List.map_nil, List.append_nil]
    rfl
  | cons value values ih =>
    -- The difference of two cells is taken modulo 256, so the increments reach the next value even
    -- if it is smaller.
    have hcell : cell + UInt8.ofNat (value - cell).toNat = value := by
      rw [UInt8.ofNat_toNat, UInt8.add_comm, UInt8.sub_add_cancel]
    have hlength : extra + (printing cell (value :: values)).length =
        extra + (printing value values).length + 1 + (value - cell).toNat := by
      rw [printing, List.length_append, List.length_replicate, List.length_cons]
      omega
    rw [printing] at hrow
    -- Behind the increments stands the `.`, and behind it the row for the other values.
    have hcounted : code.symbols.toList.drop (position + (value - cell).toNat) =
        .output :: printing value values := by
      rw [← List.drop_drop, hrow, List.drop_left' List.length_replicate]
    rcases getElem?_of_drop hcounted with ⟨hsymbol, hbehind⟩
    have hstep : code.step .output
        ⟨position + (value - cell).toNat, .single value, pending, printed⟩ =
          .ok ⟨position + (value - cell).toNat + 1, .single value, pending, value :: printed⟩ := rfl
    rw [hlength, run_increments hrow, hcell, run_of_step hsymbol hstep, ih hbehind]
    simp

end Code

/-- The printer of a text that fits into cells halts with this text on every input, and executes
each of its symbols once. -/
theorem Program.run_printer {text : String} (h : ∀ c ∈ text.toList, c.toNat ≤ 255)
    (input : String) (extra : Nat) :
    (printer text).run input ((printer text).length + extra) = ⟨.halted text, extra⟩ := by
  rcases exists_load_printer text with ⟨code, hload, hsymbols⟩
  have hrow : code.symbols.toList.drop 0 = printing 0 (text.toList.map cellOfChar) := by
    rw [hsymbols]
    rfl
  -- The characters fit into cells, so that nothing is lost on the way through them.
  have hchars : (text.toList.map cellOfChar).map charOfCell = text.toList := by
    have hchar : ∀ c ∈ text.toList, (charOfCell ∘ cellOfChar) c = id c := by
      intro c hc
      exact (charOfCell_cellOfChar c).trans (lowByte_eq_self (h c hc))
    rw [List.map_map, List.map_congr_left hchar, List.map_id]
  have hrun := Code.run_printing hrow input.toList [] extra
  rw [hchars] at hrun
  rw [run, hload, Nat.add_comm]
  refine hrun.trans ?_
  simp

/-! ## Answers -/

/-- A text is what some program prints within some budget, whatever the input is, exactly if none of
its characters is above U+00FF. The printer of such a text prints it wherever the time is enough for
its symbols. No program ever answers with a text that has a character above U+00FF. -/
theorem printable_iff (target : String) :
    ((∃ (p : Program) (budget : Nat), ∀ (input : String) (milliseconds : UInt64),
        p.evaluate (.ofBudget budget) input milliseconds = .ok target) ↔
      ∀ c ∈ target.toList, c.toNat ≤ 255) ∧
    ((∀ c ∈ target.toList, c.toNat ≤ 255) →
      ∀ (clock : Clock) (input : String) (milliseconds : UInt64),
        (Program.printer target).length ≤ clock.symbolsWithin milliseconds →
        (Program.printer target).evaluate clock input milliseconds = .ok target) ∧
    (∀ (clock : Clock) (p : Program) (input : String) (milliseconds : UInt64) (output : String),
      p.evaluate clock input milliseconds = .ok output → ∀ c ∈ output.toList, c.toNat ≤ 255) := by
  have hprints : (∀ c ∈ target.toList, c.toNat ≤ 255) →
      ∀ (clock : Clock) (input : String) (milliseconds : UInt64),
        (Program.printer target).length ≤ clock.symbolsWithin milliseconds →
        (Program.printer target).evaluate clock input milliseconds = .ok target := by
    intro hchars clock input milliseconds hle
    rcases Nat.exists_eq_add_of_le hle with ⟨extra, hextra⟩
    rw [Program.evaluate_eq_ok_iff, hextra, Program.run_printer hchars]
  refine ⟨⟨?_, ?_⟩, hprints, ?_⟩
  · rintro ⟨p, budget, hanswer⟩
    exact Program.toNat_le_of_evaluate (hanswer "" 0)
  · intro hchars
    refine ⟨.printer target, (Program.printer target).length, ?_⟩
    intro input milliseconds
    exact hprints hchars _ input milliseconds (Nat.le_refl _)
  · intro clock p input milliseconds output h
    exact Program.toNat_le_of_evaluate h

/-- `ÿ` is the last character that some program prints, also before a character that the cell has
to wrap around for. Nothing prints `€`, and what comes back for it is its low byte. -/
theorem printable_iff_wide :
    (∃ (p : Program) (budget : Nat), ∀ (input : String) (milliseconds : UInt64),
      p.evaluate (.ofBudget budget) input milliseconds = .ok "ÿ\x00é") ∧
    (Program.printer "ÿ\x00é").length ≤ Clock.steady.symbolsWithin 1 ∧
    (Program.printer "ÿ\x00é").evaluate .steady "unread" 1 = .ok "ÿ\x00é" ∧
    (¬ ∃ (p : Program) (budget : Nat), ∀ (input : String) (milliseconds : UInt64),
      p.evaluate (.ofBudget budget) input milliseconds = .ok "1 €") ∧
    (Program.parse ",.").evaluate .steady "€" 1 = .ok "\xac" ∧
      ∀ c ∈ "\xac".toList, c.toNat ≤ 255 := by
  have hchars : ∀ c ∈ "ÿ\x00é".toList, c.toNat ≤ 255 := by
    intro c hc
    have heither : c = 'ÿ' ∨ c = '\x00' ∨ c = 'é' := by simpa using hc
    rcases heither with rfl | rfl | rfl <;> decide
  have htime : (Program.printer "ÿ\x00é").length ≤ Clock.steady.symbolsWithin 1 := by
    decide +kernel
  have hwide : ¬ ∀ c ∈ "1 €".toList, c.toNat ≤ 255 := by
    intro h
    have heuro := h '€' (by simp)
    exact absurd heuro (by decide)
  have hlow : (Program.parse ",.").evaluate .steady "€" 1 = .ok "\xac" :=
    Program.evaluate_eq_ok_iff.mpr (by decide +kernel)
  rcases printable_iff "ÿ\x00é" with ⟨hiff, hprinter, -⟩
  exact ⟨hiff.mpr hchars, htime, hprinter hchars _ _ _ htime, mt (printable_iff "1 €").1.mp hwide,
    hlow, (printable_iff "").2.2 _ _ _ _ _ hlow⟩

end TapeBreeder
