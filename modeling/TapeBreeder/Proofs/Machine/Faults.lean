import TapeBreeder.Proofs.Brackets.Jumps
import TapeBreeder.Proofs.Machine.Answers

/-!
# Which faults a run can meet

A program whose jump table cannot be built fails before it runs, at the first `]` that closes
nothing. Once it has been loaded, every `]` has a target, so that only a `[` without partner can
stop it, and a balanced program has none.

* `Code.exists_step_eq_error` — a run that fails has come to a step that fails.
* `Code.step_eq_error` — a step fails at a bracket without target, and nowhere else.
* `Program.eq_unmatchedOpen_of_load` — the two together, for a program that has been loaded.
* `evaluate_faults` — which answer tells of which fault.
-/

namespace TapeBreeder

/-! ## Failing steps -/

namespace Code

variable {code : Code} {symbol : Symbol} {m : Machine} {fault : BracketError}

/-- A missing target is reported with the position of the bracket, by the kind of bracket that
looked for it. -/
theorem target_eq_error_iff {position : Nat} {wrap : Nat → BracketError} :
    code.target position wrap = .error fault ↔
      code.jumps.jump? position = none ∧ fault = wrap position := by
  unfold target
  cases code.jumps.jump? position with
  | none => simp [eq_comm]
  | some partner => simp

theorem target_eq_ok_iff {position partner : Nat} {wrap : Nat → BracketError} :
    code.target position wrap = .ok partner ↔ code.jumps.jump? position = some partner := by
  unfold target
  cases code.jumps.jump? position <;> simp

/-- A step fails at a bracket that has no target. -/
theorem step_eq_error (h : code.step symbol m = .error fault) :
    code.jumps.jump? m.position = none ∧
      (symbol = .loopOpen ∧ fault = .unmatchedOpen m.position ∨
        symbol = .loopClose ∧ fault = .unmatchedClose m.position) := by
  rcases m with ⟨position, tape, pending, printed⟩
  -- Only the brackets look for a target, so no other symbol can fail.
  cases symbol with
  | loopOpen =>
    simp only [step] at h
    split at h
    · split at h
      · cases h
      · next hfault =>
        cases h
        rcases target_eq_error_iff.mp hfault with ⟨hnone, hwrap⟩
        exact ⟨hnone, .inl ⟨rfl, hwrap⟩⟩
    · cases h
  | loopClose =>
    simp only [step] at h
    split at h
    · split at h
      · cases h
      · next hfault =>
        cases h
        rcases target_eq_error_iff.mp hfault with ⟨hnone, hwrap⟩
        exact ⟨hnone, .inr ⟨rfl, hwrap⟩⟩
    · cases h
  | input =>
    cases pending with
    | nil => cases h
    | cons c rest => cases h
  | _ => cases h

/-- A run that fails has come to a step that fails. -/
theorem exists_step_eq_error {budget : Nat} (h : (code.run budget m).outcome = .failed fault) :
    ∃ (m' : Machine) (symbol : Symbol), code.symbols[m'.position]? = some symbol ∧
      code.step symbol m' = .error fault := by
  -- By induction on the budget, from which every step takes one.
  induction budget generalizing m with
  | zero =>
    rw [run] at h
    cases hsymbol : code.symbols[m.position]? with
    | none => simp [hsymbol] at h
    | some symbol => simp [hsymbol] at h
  | succ budget ih =>
    rw [run] at h
    cases hsymbol : code.symbols[m.position]? with
    | none => simp [hsymbol] at h
    | some symbol =>
      simp only [hsymbol] at h
      cases hstep : code.step symbol m with
      | error other =>
        simp only [hstep] at h
        obtain rfl := Outcome.failed.inj h
        exact ⟨m, symbol, hsymbol, hstep⟩
      | ok m' =>
        simp only [hstep] at h
        exact ih h

end Code

/-! ## Loaded programs -/

namespace Program

variable {p : Program} {code : Code}

theorem load_eq_ok_iff : p.load = .ok code ↔
    ∃ table, JumpTable.build p.symbols = .ok table ∧ code = ⟨p.symbols.toArray, table⟩ := by
  unfold load
  cases JumpTable.build p.symbols with
  | ok table => simp [Except.map, eq_comm]
  | error fault => simp [Except.map]

theorem load_eq_error_iff {fault : BracketError} :
    p.load = .error fault ↔ JumpTable.build p.symbols = .error fault := by
  unfold load
  cases JumpTable.build p.symbols with
  | ok table => simp [Except.map]
  | error fault => simp [Except.map]

/-- The only fault of a program that has been loaded is a `[` without target. -/
theorem eq_unmatchedOpen_of_load (hload : p.load = .ok code) {budget : Nat} {m : Machine}
    {fault : BracketError} (h : (code.run budget m).outcome = .failed fault) :
    ∃ k, fault = .unmatchedOpen k ∧ p.symbols[k]? = some .loopOpen ∧
      code.jumps.jump? k = none := by
  rcases load_eq_ok_iff.mp hload with ⟨table, hbuild, rfl⟩
  rcases Code.exists_step_eq_error h with ⟨m', symbol, hsymbol, hstep⟩
  have hsymbol' : p.symbols[m'.position]? = some symbol := by
    rwa [List.getElem?_toArray] at hsymbol
  rcases Code.step_eq_error hstep with ⟨hnone, ⟨rfl, rfl⟩ | ⟨rfl, rfl⟩⟩
  · exact ⟨m'.position, rfl, hsymbol', hnone⟩
  · -- A `]` is the end of a pair, and so it has a target.
    have hsome := JumpTable.isSome_depthAfter?_of_build hbuild
    rcases exists_isPair_of_close hsome hsymbol' with ⟨j, hpair⟩
    have htarget := (JumpTable.jump?_of_isPair hbuild hpair).2
    rw [hnone] at htarget
    cases htarget

/-- A `[` without target is without partner too, by either way of looking for one. -/
theorem partner?_eq_none_of_jump? {table : JumpTable} {k : Nat}
    (hbuild : JumpTable.build p.symbols = .ok table) (hopen : p.symbols[k]? = some .loopOpen)
    (hnone : table.jump? k = none) :
    p.partner? k = none ∧ ∀ j, ¬ IsPair p.symbols k j := by
  have hpairs : ∀ j, ¬ IsPair p.symbols k j := by
    intro j hpair
    have htarget := (JumpTable.jump?_of_isPair hbuild hpair).1
    rw [hnone] at htarget
    cases htarget
  refine ⟨?_, hpairs⟩
  cases hpartner : p.partner? k with
  | none => rfl
  | some j =>
    rcases isPair_of_partner? hpartner with hpair | hpair
    · exact absurd hpair (hpairs j)
    · -- As the second end of a pair, it would be a `]`.
      have hclose := hpair.getElem?_second
      rw [hopen] at hclose
      cases hclose

end Program

/-! ## Answers -/

/-- A program that cannot be loaded fails before it runs. One that has been loaded fails at a `[`
without target, if at all. -/
theorem Program.evaluate_eq_brackets_cases {clock : Clock} {p : Program} {input : String}
    {milliseconds : UInt64} {fault : BracketError}
    (h : p.evaluate clock input milliseconds = .error (.brackets fault)) :
    JumpTable.build p.symbols = .error fault ∨
      ∃ table k, JumpTable.build p.symbols = .ok table ∧ fault = .unmatchedOpen k ∧
        p.symbols[k]? = some .loopOpen ∧ table.jump? k = none := by
  have hrun := Outcome.answer_eq_brackets_iff.mp h
  unfold run at hrun
  split at hrun
  · next other hload =>
    cases hrun
    exact .inl (load_eq_error_iff.mp hload)
  · next code hload =>
    rcases eq_unmatchedOpen_of_load hload hrun with ⟨k, hfault, hopen, hnone⟩
    rcases load_eq_ok_iff.mp hload with ⟨table, hbuild, rfl⟩
    exact .inr ⟨table, k, hbuild, hfault, hopen, hnone⟩

/-- A program that cannot be loaded answers every input with its fault, before it has executed
anything. -/
theorem Program.evaluate_of_build_eq_error {clock : Clock} {p : Program} {input : String}
    {milliseconds : UInt64} {fault : BracketError} (h : JumpTable.build p.symbols = .error fault) :
    p.evaluate clock input milliseconds = .error (.brackets fault) := by
  rw [evaluate, run, load_eq_error_iff.mpr h]
  rfl

/-- An answer is a text, a fault of the brackets, or a timeout with the budget that was given. -/
theorem Program.evaluate_cases (clock : Clock) (p : Program) (input : String)
    (milliseconds : UInt64) :
    (∃ output, p.evaluate clock input milliseconds = .ok output) ∨
      (∃ fault, p.evaluate clock input milliseconds = .error (.brackets fault)) ∨
      p.evaluate clock input milliseconds = .error (.timeout milliseconds) := by
  unfold evaluate
  cases (p.run input (clock.symbolsWithin milliseconds)).outcome with
  | halted text => exact .inl ⟨text, rfl⟩
  | failed fault => exact .inr (.inl ⟨fault, rfl⟩)
  | outOfBudget => exact .inr (.inr rfl)

/-- What the answer of a program says about its brackets, whatever the input and the budget. It
names a `]` exactly when the prefix up to this `]` is the first one with more `]`s than `[`s; no
machine, wherever it stands in a program that has been loaded, fails at a `]`. It names a `[` only
when there is no such prefix and the `[` has no partner. A balanced program prints something or runs
out of time. -/
theorem evaluate_faults (clock : Clock) (p : Program) (input : String) (milliseconds : UInt64) :
    (∀ k, p.evaluate clock input milliseconds = .error (.brackets (.unmatchedClose k)) ↔
      IsFirstOverclose 0 p.symbols k) ∧
    (∀ code, p.load = .ok code → ∀ (budget : Nat) (m : Machine) (k : Nat),
      (code.run budget m).outcome ≠ .failed (.unmatchedClose k)) ∧
    (∀ k, p.evaluate clock input milliseconds = .error (.brackets (.unmatchedOpen k)) →
      (∀ n, ¬ Overcloses 0 (p.symbols.take n)) ∧ p.symbols[k]? = some .loopOpen ∧
        p.partner? k = none ∧ ∀ j, ¬ IsPair p.symbols k j) ∧
    (p.isBalanced = true → (∃ output, p.evaluate clock input milliseconds = .ok output) ∨
      p.evaluate clock input milliseconds = .error (.timeout milliseconds)) := by
  refine ⟨?_, ?_, ?_, ?_⟩
  · intro k
    constructor
    · intro h
      rcases Program.evaluate_eq_brackets_cases h with herror | ⟨table, j, -, hfault, -⟩
      · rcases JumpTable.build_eq_error_iff.mp herror with ⟨j, hfault, hfirst⟩
        obtain rfl := BracketError.unmatchedClose.inj hfault
        exact hfirst
      · cases hfault
    · intro hfirst
      apply Program.evaluate_of_build_eq_error
      exact JumpTable.build_eq_error_iff.mpr ⟨k, rfl, hfirst⟩
  · intro code hload budget m k h
    rcases Program.eq_unmatchedOpen_of_load hload h with ⟨j, hfault, -⟩
    cases hfault
  · intro k h
    rcases Program.evaluate_eq_brackets_cases h with
      herror | ⟨table, j, hbuild, hfault, hopen, hnone⟩
    · rcases JumpTable.build_eq_error_iff.mp herror with ⟨j, hfault, -⟩
      cases hfault
    · obtain rfl := BracketError.unmatchedOpen.inj hfault
      -- Looking for the partner among the symbols finds no more than the jump table does.
      have hpartner := Program.partner?_eq_none_of_jump? hbuild hopen hnone
      exact ⟨JumpTable.not_overcloses_of_build hbuild, hopen, hpartner⟩
  · intro hbalanced
    have hbalanced : Balanced p.symbols := Program.isBalanced_iff.mp hbalanced
    rcases Program.evaluate_cases clock p input milliseconds with
      houtput | ⟨fault, hfault⟩ | htimeout
    · exact .inl houtput
    · -- Neither kind of fault can be met: the table can be built, and no `[` is without target.
      rcases Program.evaluate_eq_brackets_cases hfault with
        herror | ⟨table, k, hbuild, -, hopen, hnone⟩
      · have hloadable := Program.isLoadable_of_balanced hbalanced
        rcases Program.isLoadable_iff_exists_build.mp hloadable with ⟨table, hbuild⟩
        rw [hbuild] at herror
        cases herror
      · have hpartner := Program.partner?_eq_none_of_jump? hbuild hopen hnone
        exact absurd hpartner.1 (Program.partner?_ne_none_of_balanced hbalanced hopen)
    · exact .inr htimeout

/-- A `]` too many is found before anything runs, even without any budget. A `[` without partner is
found when it is reached at a zero, and not before. A balanced program that never halts runs out of
time. -/
theorem evaluate_faults_kinds :
    (Program.parse "[]+]][").evaluate .steady "" 0 = .error (.brackets (.unmatchedClose 3)) ∧
      (∃ code, (Program.parse ",[[-]").load = .ok code ∧
        (code.run 9 (.start "a")).outcome ≠ .failed (.unmatchedClose 4)) ∧
      (Program.parse "[-],[[.]").evaluate .steady "" 10 =
        .error (.brackets (.unmatchedOpen 4)) ∧
      (Program.parse "[-],[[.]").partner? 4 = none ∧
      (Program.parse "+[[]]").isBalanced = true ∧
      ((∃ output, (Program.parse "+[[]]").evaluate .steady "" 10 = .ok output) ∨
        (Program.parse "+[[]]").evaluate .steady "" 10 = .error (.timeout 10)) := by
  have hfirst : IsFirstOverclose 0 (Program.parse "[]+]][").symbols 3 := by decide
  have hload : ∃ code, (Program.parse ",[[-]").load = .ok code := ⟨_, rfl⟩
  have hstuck : (Program.parse "[-],[[.]").evaluate .steady "" 10 =
      .error (.brackets (.unmatchedOpen 4)) := by
    decide +kernel
  have hbalanced : (Program.parse "+[[]]").isBalanced = true := by decide
  have hclose := (evaluate_faults .steady (Program.parse "[]+]][") "" 0).1 3
  have hopen := (evaluate_faults .steady (Program.parse "[-],[[.]") "" 10).2.2.1 4 hstuck
  have hends := (evaluate_faults .steady (Program.parse "+[[]]") "" 10).2.2.2 hbalanced
  rcases hload with ⟨code, hload⟩
  have hnever := (evaluate_faults .steady (Program.parse ",[[-]") "" 10).2.1 code hload
  exact ⟨hclose.mpr hfirst, ⟨code, hload, hnever 9 _ 4⟩, hstuck, hopen.2.2.1, hbalanced, hends⟩

end TapeBreeder
