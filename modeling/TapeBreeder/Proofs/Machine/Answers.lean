import TapeBreeder.Clock

/-!
# What an answer says about a run

The answer of a program within a time limit tells how its run ended.

* `Outcome.answer_eq_ok_iff`, `Outcome.answer_eq_brackets_iff`, `Outcome.answer_eq_timeout_iff` —
  read backwards, case by case.
* `Program.evaluate_eq_ok_iff` — a program answers with a text if its run halts with that text.
-/

namespace TapeBreeder

variable {milliseconds : UInt64} {o : Outcome} {output : String}

theorem Outcome.answer_eq_ok_iff : o.answer milliseconds = .ok output ↔ o = .halted output := by
  cases o <;> simp [answer]

theorem Outcome.answer_eq_brackets_iff {fault : BracketError} :
    o.answer milliseconds = .error (.brackets fault) ↔ o = .failed fault := by
  cases o <;> simp [answer]

theorem Outcome.answer_eq_timeout_iff :
    o.answer milliseconds = .error (.timeout milliseconds) ↔ o = .outOfBudget := by
  cases o <;> simp [answer]

/-- A program answers with a text exactly if it halts with it within the symbols that the clock
allows. -/
theorem Program.evaluate_eq_ok_iff {clock : Clock} {p : Program} {input : String} :
    p.evaluate clock input milliseconds = .ok output ↔
      (p.run input (clock.symbolsWithin milliseconds)).outcome = .halted output :=
  Outcome.answer_eq_ok_iff

end TapeBreeder
