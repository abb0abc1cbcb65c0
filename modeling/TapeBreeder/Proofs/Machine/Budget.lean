import TapeBreeder.Proofs.Machine.Answers

/-!
# Runs and their budgets

A run looks at its budget before each symbol and nowhere else. So one that ends within a budget
ends in the same way within a larger one, what is added to the budget is left over, and a program
that does not run out of time answers the same when it is given more time.

* `Code.run_of_step`, `Code.run_of_error`, `Code.run_of_end` — the first symbol of a run.
* `Code.run_add`, `Program.run_add` — runs within a larger budget.
* `Program.run_of_le`, `Program.outOfBudget_of_le` — runs within two budgets.
* `Program.evaluate_of_le` — answers within a longer time.
-/

namespace TapeBreeder

/-! ## The first symbol -/

section

variable {code : Code} {m m' : Machine} {symbol : Symbol}

/-- A symbol that can be executed takes one unit of the budget. -/
theorem Code.run_of_step (hsymbol : code.symbols[m.position]? = some symbol)
    (hstep : code.step symbol m = .ok m') (n : Nat) : code.run (n + 1) m = code.run n m' := by
  rw [run, hsymbol]
  simp only [hstep]

/-- A bracket that cannot be followed has taken its unit of the budget, too. -/
theorem Code.run_of_error {fault : BracketError}
    (hsymbol : code.symbols[m.position]? = some symbol)
    (hstep : code.step symbol m = .error fault) (n : Nat) :
    code.run (n + 1) m = ⟨.failed fault, n⟩ := by
  rw [run, hsymbol]
  simp only [hstep]

/-- Behind the last symbol nothing is executed, so a run ends there without any budget. -/
theorem Code.run_of_end (hend : code.symbols[m.position]? = none) (n : Nat) :
    code.run n m = ⟨.halted m.text, n⟩ := by
  rw [run.eq_def, hend]

/-- A run that is not out of budget at a symbol has had budget for it. -/
theorem Code.exists_succ_of_run {n : Nat} (hsymbol : code.symbols[m.position]? = some symbol)
    (hrun : (code.run n m).outcome ≠ .outOfBudget) : ∃ k, n = k + 1 := by
  cases n with
  | zero =>
    rw [run, hsymbol] at hrun
    exact absurd rfl hrun
  | succ k => exact ⟨k, rfl⟩

end

/-! ## Larger budgets -/

/-- The machine takes the same steps whatever its budget is, as long as there is any left. -/
theorem Code.run_add {code : Code} {budget : Nat} {m : Machine} (extra : Nat)
    (h : (code.run budget m).outcome ≠ .outOfBudget) :
    code.run (budget + extra) m =
      ⟨(code.run budget m).outcome, (code.run budget m).unspent + extra⟩ := by
  induction budget generalizing m with
  | zero =>
    cases hsymbol : code.symbols[m.position]? with
    | none => rw [run_of_end hsymbol, run_of_end hsymbol]
    | some symbol =>
      -- Without budget, a run that does not run out of it stands behind its last symbol.
      rcases exists_succ_of_run hsymbol h with ⟨k, hzero⟩
      cases hzero
  | succ budget ih =>
    rw [Nat.succ_add]
    cases hsymbol : code.symbols[m.position]? with
    | none =>
      rw [run_of_end hsymbol, run_of_end hsymbol]
      exact congrArg (Run.mk _) (Nat.succ_add budget extra).symm
    | some symbol =>
      cases hstep : code.step symbol m with
      | error fault => rw [run_of_error hsymbol hstep, run_of_error hsymbol hstep]
      | ok next =>
        -- The step leaves the same machine within either budget, and `ih` is about the rest.
        rw [run_of_step hsymbol hstep] at h
        rw [run_of_step hsymbol hstep, run_of_step hsymbol hstep]
        exact ih h

/-- As for code, and a program that cannot be loaded does not look at its budget at all. -/
theorem Program.run_add {p : Program} {input : String} {budget : Nat} (extra : Nat)
    (h : (p.run input budget).outcome ≠ .outOfBudget) :
    p.run input (budget + extra) =
      ⟨(p.run input budget).outcome, (p.run input budget).unspent + extra⟩ := by
  unfold run at h ⊢
  cases hload : p.load with
  | error fault => rfl
  | ok code =>
    rw [hload] at h
    exact Code.run_add extra h

/-- A run that ends within a budget ends alike within every larger one, and leaves more of it. -/
theorem Program.run_of_le {p : Program} {input : String} {budget larger : Nat}
    (hle : budget ≤ larger) (h : (p.run input budget).outcome ≠ .outOfBudget) :
    p.run input larger =
      ⟨(p.run input budget).outcome, (p.run input budget).unspent + (larger - budget)⟩ := by
  have hrun := run_add (larger - budget) h
  rwa [Nat.add_sub_cancel' hle] at hrun

/-- A program that runs out of a budget runs out of each smaller one. -/
theorem Program.outOfBudget_of_le {p : Program} {input : String} {budget larger : Nat}
    (hle : budget ≤ larger) (h : (p.run input larger).outcome = .outOfBudget) :
    (p.run input budget).outcome = .outOfBudget := by
  apply Decidable.byContradiction
  intro hends
  rw [run_of_le hle hends] at h
  exact hends h

/-- An answer that is not a timeout stays the same when more time is given. -/
theorem Program.evaluate_of_le {clock : Clock} {p : Program} {input : String}
    {short long : UInt64} (hle : short ≤ long)
    (h : p.evaluate clock input short ≠ .error (.timeout short)) :
    p.evaluate clock input long = p.evaluate clock input short := by
  unfold evaluate at h ⊢
  rw [Ne, Outcome.answer_eq_timeout_iff] at h
  rw [run_of_le (clock.symbolsWithin_mono hle) h]
  -- Only the answer to a run out of time tells how much time there was.
  cases houtcome : (p.run input (clock.symbolsWithin short)).outcome with
  | halted text => rfl
  | failed fault => rfl
  | outOfBudget => exact absurd houtcome h

end TapeBreeder
