import TapeBreeder.Proofs.Machine.Cells

/-!
# A program that echoes

The program `,[.,]` prints what it reads, character by character, until it reads a zero. That is a
character whose low byte is zero, or the end of the input. Each character goes through one cell, so
it comes out reduced to its low byte.

* `echoed`, `lowByte` — the characters that are read before the first zero, and how they come out.
* `Machine.echoing` — the machine behind a bracket: inside the loop if the cell is not zero, else
  behind it. It is the same machine whichever of the two brackets it has passed.
* `Code.run_echo_round`, `Code.run_echoing` — one round of the loop, and by induction on what is to
  be read all of them.
* `echo_prints_input` — the text that is printed, and the number of symbols executed for it.
-/

namespace TapeBreeder

/-! ## What is echoed -/

/-- The characters in front of the first one whose code point is a multiple of 256. -/
def echoed (text : List Char) : List Char :=
  text.takeWhile fun c => c.toNat % 256 ≠ 0

/-- The character that is printed for one that has been read. -/
def lowByte (c : Char) : Char :=
  Char.ofNat (c.toNat % 256)

/-- A character that is read into a cell and printed keeps its low byte only. -/
theorem charOfCell_cellOfChar (c : Char) : charOfCell (cellOfChar c) = lowByte c := by
  unfold charOfCell cellOfChar lowByte
  rw [UInt8.toNat_ofNat']

theorem lowByte_eq_self {c : Char} (h : c.toNat ≤ 255) : lowByte c = c := by
  unfold lowByte
  rw [Nat.mod_eq_of_lt (by omega), Char.ofNat_toNat]

/-- A character that is read as zero ends the loop, like the end of the input. -/
theorem echoed_cons_of_zero {c : Char} (h : cellOfChar c = 0) (rest : List Char) :
    echoed (c :: rest) = [] := by
  have hstop := cellOfChar_eq_zero_iff.mp h
  unfold echoed
  rw [List.takeWhile_cons_of_neg (by simpa using hstop)]

theorem echoed_cons_of_ne_zero {c : Char} (h : cellOfChar c ≠ 0) (rest : List Char) :
    echoed (c :: rest) = c :: echoed rest := by
  have hgoes := mt cellOfChar_eq_zero_iff.mpr h
  unfold echoed
  rw [List.takeWhile_cons_of_pos (by simpa using hgoes)]

/-- A text of characters that fit into a cell, and none of which is zero, is echoed as it is. -/
theorem map_lowByte_echoed {text : List Char} (h : ∀ c ∈ text, 1 ≤ c.toNat ∧ c.toNat ≤ 255) :
    (echoed text).map lowByte = text := by
  induction text with
  | nil => rfl
  | cons c rest ih =>
    rcases List.forall_mem_cons.mp h with ⟨⟨hpos, hle⟩, hrest⟩
    have hcell : cellOfChar c ≠ 0 := by
      rw [Ne, cellOfChar_eq_zero_iff]
      omega
    rw [echoed_cons_of_ne_zero hcell, List.map_cons, lowByte_eq_self hle, ih hrest]

/-! ## The loop -/

/-- A tape of one cell. -/
def Tape.single (cell : UInt8) : Tape :=
  ⟨#[cell], 0⟩

@[simp] theorem Tape.read_single (cell : UInt8) : (single cell).read = cell :=
  rfl

@[simp] theorem Tape.write_single (cell value : UInt8) : (single cell).write value = single value :=
  rfl

/-- The code of `,[.,]`. -/
def Code.echo : Code where
  symbols := #[.input, .loopOpen, .output, .input, .loopClose]
  jumps := ⟨#[none, some 4, none, none, some 1]⟩

/-- The program and its jump table, by computation. From here on only the code is looked at. -/
theorem Program.load_echo : (Program.parse ",[.,]").load = .ok .echo :=
  rfl

/-- The machine that has read one more character and has then passed a bracket. -/
def Machine.echoing (pending : List Char) (printed : List UInt8) : Machine where
  position := if cellStream pending 0 = 0 then 5 else 2
  tape := .single (cellStream pending 0)
  pending := pending.tail
  printed := printed

namespace Code

variable (pending : List Char) (printed : List UInt8)

/-- Either bracket leads behind the loop from a zero, and to the first symbol inside it from
anything else. -/
theorem step_echo_bracket {position : Nat} {bracket : Symbol}
    (h : (position = 1 ∧ bracket = .loopOpen) ∨ (position = 4 ∧ bracket = .loopClose)) :
    echo.step bracket ⟨position, .single (cellStream pending 0), pending.tail, printed⟩ =
      .ok (.echoing pending printed) := by
  rcases h with ⟨rfl, rfl⟩ | ⟨rfl, rfl⟩ <;> by_cases hzero : cellStream pending 0 = 0 <;>
    simp [step, target, Machine.echoing, hzero, echo, JumpTable.jump?]

/-- The loop is entered with the first character. -/
theorem run_echo_start (extra : Nat) :
    echo.run (extra + 2) ⟨0, .single 0, pending, printed⟩ =
      echo.run extra (.echoing pending printed) := by
  have hread : echo.step .input ⟨0, .single 0, pending, printed⟩ =
      .ok ⟨1, .single (cellStream pending 0), pending.tail, printed⟩ := step_input _ _
  have hopen := step_echo_bracket pending printed (.inl ⟨rfl, rfl⟩)
  rw [run_of_step rfl hread, run_of_step rfl hopen]

/-- One round prints the character that has been read and reads the next one. -/
theorem run_echo_round {c : Char} (h : cellOfChar c ≠ 0) (extra : Nat) :
    echo.run (extra + 3) (.echoing (c :: pending) printed) =
      echo.run extra (.echoing pending (cellOfChar c :: printed)) := by
  have hinside : Machine.echoing (c :: pending) printed =
      ⟨2, .single (cellOfChar c), pending, printed⟩ := by
    unfold Machine.echoing
    rw [if_neg (show ¬ cellStream (c :: pending) 0 = 0 from h)]
    rfl
  -- The three symbols of a round: the character is printed, the next one is read, and the `]` jumps
  -- back or not.
  have hprint : echo.step .output ⟨2, .single (cellOfChar c), pending, printed⟩ =
      .ok ⟨3, .single (cellOfChar c), pending, cellOfChar c :: printed⟩ := rfl
  have hread : echo.step .input ⟨3, .single (cellOfChar c), pending, cellOfChar c :: printed⟩ =
      .ok ⟨4, .single (cellStream pending 0), pending.tail, cellOfChar c :: printed⟩ :=
    step_input _ _
  have hclose := step_echo_bracket pending (cellOfChar c :: printed) (.inr ⟨rfl, rfl⟩)
  rw [hinside, run_of_step rfl hprint, run_of_step rfl hread, run_of_step rfl hclose]

/-- Behind the loop there is nothing left to execute. -/
theorem run_echo_end (h : cellStream pending 0 = 0) (extra : Nat) :
    echo.run extra (.echoing pending printed) =
      ⟨.halted (String.ofList (printed.reverse.map charOfCell)), extra⟩ := by
  have hend : echo.symbols[(Machine.echoing pending printed).position]? = none := by
    unfold Machine.echoing
    rw [if_pos h]
    rfl
  rw [run_of_end hend]
  rfl

/-- What has been printed stays in front. The loop adds the characters that are still to be echoed,
at three symbols each. -/
theorem run_echoing (extra : Nat) :
    echo.run (extra + 3 * (echoed pending).length) (.echoing pending printed) =
      ⟨.halted (String.ofList
        (printed.reverse.map charOfCell ++ (echoed pending).map lowByte)), extra⟩ := by
  induction pending generalizing printed with
  | nil =>
    rw [run_echo_end [] printed rfl]
    simp [echoed]
  | cons c rest ih =>
    -- A zero is read at the end of the input or before it; the loop cannot tell the difference.
    by_cases hzero : cellOfChar c = 0
    · rw [run_echo_end (c :: rest) printed hzero, echoed_cons_of_zero hzero]
      simp
    · rw [echoed_cons_of_ne_zero hzero, List.length_cons, Nat.mul_succ, ← Nat.add_assoc,
        run_echo_round rest printed hzero, ih]
      simp [charOfCell_cellOfChar]

end Code

/-- The program `,[.,]` halts on every input. It prints the characters in front of the first one
whose code point is a multiple of 256, each reduced to its low byte, and for that it executes three
symbols a character and two more: with a larger budget, all of the rest is left over. So it answers
with this text wherever the time is enough for as many symbols. An input of characters from U+0001
to U+00FF it prints as it is. -/
theorem echo_prints_input (input : String) :
    let text := String.ofList ((echoed input.toList).map lowByte)
    let budget := 2 + 3 * (echoed input.toList).length
    (∀ extra, (Program.parse ",[.,]").run input (budget + extra) = ⟨.halted text, extra⟩) ∧
      (∀ (clock : Clock) (milliseconds : UInt64), budget ≤ clock.symbolsWithin milliseconds →
        (Program.parse ",[.,]").evaluate clock input milliseconds = .ok text) ∧
      ((∀ c ∈ input.toList, 1 ≤ c.toNat ∧ c.toNat ≤ 255) → text = input) := by
  intro text budget
  -- The first two symbols read a character and enter the loop, or pass it by.
  have hrun : ∀ extra, (Program.parse ",[.,]").run input (budget + extra) =
      ⟨.halted text, extra⟩ := by
    intro extra
    have hbudget : budget + extra = extra + 3 * (echoed input.toList).length + 2 := by omega
    rw [Program.run, Program.load_echo, hbudget]
    exact (Code.run_echo_start input.toList [] _).trans (Code.run_echoing input.toList [] extra)
  refine ⟨hrun, ?_, ?_⟩
  · intro clock milliseconds hle
    rcases Nat.exists_eq_add_of_le hle with ⟨extra, hextra⟩
    rw [Program.evaluate_eq_ok_iff, hextra, hrun]
  · intro hchars
    show String.ofList ((echoed input.toList).map lowByte) = input
    rw [map_lowByte_echoed hchars, String.ofList_toList]

/-- `Ł` comes out as `A`, its low byte, and `Ā`, whose low byte is zero, ends the echo. `é` fits
into a cell. -/
theorem echo_prints_input_cut :
    2 + 3 * (echoed "aŁĀb".toList).length ≤ Clock.steady.symbolsWithin 1 ∧
      (Program.parse ",[.,]").evaluate .steady "aŁĀb" 1 = .ok "aA" ∧
      (Program.parse ",[.,]").run "aŁĀb" 8 = ⟨.halted "aA", 0⟩ ∧
      (∀ c ∈ "né".toList, 1 ≤ c.toNat ∧ c.toNat ≤ 255) ∧
      (Program.parse ",[.,]").evaluate .steady "né" 1 = .ok "né" := by
  have htime : 2 + 3 * (echoed "aŁĀb".toList).length ≤ Clock.steady.symbolsWithin 1 := by
    decide +kernel
  have htext : String.ofList ((echoed "aŁĀb".toList).map lowByte) = "aA" := by decide +kernel
  have hchars : ∀ c ∈ "né".toList, 1 ≤ c.toNat ∧ c.toNat ≤ 255 := by
    intro c hc
    have heither : c = 'n' ∨ c = 'é' := by simpa using hc
    rcases heither with rfl | rfl <;> decide
  have hcut := echo_prints_input "aŁĀb"
  have hwhole := echo_prints_input "né"
  have hprinted := hcut.2.1 .steady 1 htime
  have hkept := hwhole.2.1 .steady 1 (by decide +kernel)
  have hexact := hcut.1 0
  rw [htext] at hprinted hexact
  rw [hwhole.2.2 hchars] at hkept
  exact ⟨htime, hprinted, hexact, hchars, hkept⟩

end TapeBreeder
