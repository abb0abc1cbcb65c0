import TapeBreeder.Proofs.Machine.Cells
import TapeBreeder.Proofs.Search.Cancellation
import TapeBreeder.Proofs.Search.Reports

/-!
# Examples that no program solves

A program prints characters up to U+00FF, and all that it knows of an input are the cells that the
input amounts to. So there are examples that no program solves: those with another character in a
target, and those with two inputs of the same cells and two different targets. Where every miss is
charged, nothing costs nothing then, and no search succeeds, whatever it draws.

* `Unsolvable` — such examples.
* `not_solves_of_unsolvable` — no program solves them.
* `no_winner_of_unsolvable` — no program is perfect for them, and no search ends with a report.
-/

namespace TapeBreeder

/-- Whether some target has a character that no cell is shown as, or two inputs amount to the same
cells and have different targets. -/
def Unsolvable (examples : List Example) : Prop :=
  (∃ pair ∈ examples, ∃ c ∈ pair.target.toList, 255 < c.toNat) ∨
  ∃ a ∈ examples, ∃ b ∈ examples,
    cellStream a.input.toList = cellStream b.input.toList ∧ a.target ≠ b.target

/-- What no program can print is not printed, and what no program can tell apart gets one answer. -/
theorem not_solves_of_unsolvable {clock : Clock} {examples : List Example} {p : Program}
    {milliseconds : UInt64} (h : Unsolvable examples) :
    ¬ p.Solves clock milliseconds examples := by
  intro hsolves
  rcases h with ⟨pair, hpair, c, hc, hwide⟩ | ⟨a, ha, b, hb, hcells, hne⟩
  · have hprinted := Program.toNat_le_of_evaluate (hsolves pair hpair) c hc
    omega
  · -- The program cannot tell the inputs apart, so it gives both of them the same answer.
    have hsame := hsolves a ha
    rw [Program.evaluate_of_cellStream_eq hcells, hsolves b hb] at hsame
    exact hne (Except.ok.inj hsame).symm

/-- Where every mismatch and every timeout is charged, no program is perfect for examples that
cannot be solved, whatever runtime is measured, and no search for one ends with a report: with
whatever other settings, from whatever source of draws, in whatever number of rounds. -/
theorem no_winner_of_unsolvable {options : CostOptions} {examples : List Example}
    (hflat : 0 < options.penalties.notEqual)
    (htimeout : 0 < options.penalties.timeout ∨ options.timeoutPolicy = .disqualify)
    (hunsolvable : Unsolvable examples) :
    (∀ (clock : Clock) (p : Program), (p.baseCost clock options examples).cost ≠ .valid 0 ∧
      p.cost clock options examples ≠ .valid 0) ∧
    ∀ (σ : Type) [RandomSource σ] (clock : Clock) (monitor : Monitor) (rounds : Nat)
      (e : Engine σ) (r : Engine.Run σ), e.config.cost = options → e.examples = examples →
      e.run clock monitor rounds = some r → ∀ report, r.result ≠ .ok report := by
  have hcharges : options.ChargesEveryMiss := ⟨.inl hflat, htimeout.symm⟩
  constructor
  · intro clock p
    have hbase : (p.baseCost clock options examples).cost ≠ .valid 0 := by
      intro hzero
      have hsolves : p.Solves clock options.timeoutMs examples := by
        intro pair hpair
        exact Program.evaluate_of_baseCost_eq_zero hcharges hzero hpair
      exact not_solves_of_unsolvable hunsolvable hsolves
    refine ⟨hbase, ?_⟩
    intro hzero
    exact hbase (Cost.withRuntime_eq_zero_iff.mp hzero)
  · intro σ _ clock monitor rounds e r hconfig hexamples hrun report hresult
    rw [← hconfig] at hcharges
    rw [← hexamples] at hunsolvable
    -- Whatever the search has found would have to solve the examples.
    have hsolves : report.program.Solves clock e.config.cost.timeoutMs e.examples := by
      intro pair hpair
      exact Engine.evaluate_of_run hcharges hrun hresult hpair
    exact not_solves_of_unsolvable hunsolvable hsolves

/-- A search with the usual settings and a limit of one generation. -/
def Engine.brief (examples : List Example) : Engine Script where
  config := { evolve := { generationLimit := some 1 } }
  examples
  source := ⟨[]⟩
  generation := 0
  stagnation := .start 10
  cancelled := false

/-- The usual settings charge every miss, and so searches for the euro sign and for different
answers to `a` and `š` are exhausted. -/
theorem no_winner_of_unsolvable_brief :
    0 < ({} : CostOptions).penalties.notEqual ∧ 0 < ({} : CostOptions).penalties.timeout ∧
      Unsolvable [⟨"a", "€"⟩] ∧ Unsolvable [⟨"a", "b"⟩, ⟨"š\x00", "c"⟩] ∧
      (∃ r, (Engine.brief [⟨"a", "€"⟩]).run .steady (.passive none) 2 = some r ∧
        r.result = .error (.exhausted 1)) ∧
      ∃ r, (Engine.brief [⟨"a", "b"⟩, ⟨"š\x00", "c"⟩]).run .steady (.passive none) 2 = some r ∧
        r.result = .error (.exhausted 1) := by
  have hflat : 0 < ({} : CostOptions).penalties.notEqual := by decide
  have htimeout : 0 < ({} : CostOptions).penalties.timeout := by decide
  have hwide : Unsolvable [⟨"a", "€"⟩] :=
    .inl ⟨⟨"a", "€"⟩, by simp, '€', by simp, by decide⟩
  have hconflict : Unsolvable [⟨"a", "b"⟩, ⟨"š\x00", "c"⟩] := by
    refine .inr ⟨⟨"a", "b"⟩, by simp, ⟨"š\x00", "c"⟩, by simp, ?_, by decide⟩
    have hpadding : ∀ c ∈ ['\x00'], cellOfChar c = 0 := by
      intro c hc
      obtain rfl := List.mem_singleton.mp hc
      rfl
    have hpadded := cellStream_append_of_zero hpadding ['š']
    have hsame : cellStream ['a'] = cellStream ['š'] := rfl
    exact hsame.trans hpadded.symm
  -- A search that nobody cancels ends with a report or at its limit.
  have hexhausted : ∀ examples, Unsolvable examples →
      ∃ r, (Engine.brief examples).run .steady (.passive none) 2 = some r ∧
        r.result = .error (.exhausted 1) := by
    intro examples hunsolvable
    have hlimit : (Engine.brief examples).config.evolve.generationLimit = some 1 := rfl
    have hends : ((Engine.brief examples).run .steady (.passive none) 2).isSome :=
      Engine.isSome_run hlimit (by decide)
    rcases Option.isSome_iff_exists.mp hends with ⟨r, hrun⟩
    refine ⟨r, hrun, ?_⟩
    rcases Engine.Run.ok_or_exhausted rfl hrun with ⟨report, hresult⟩ | ⟨limit, hsome, hresult⟩
    · exact absurd hresult ((no_winner_of_unsolvable hflat (.inl htimeout) hunsolvable).2 Script
        .steady (.passive none) 2 (Engine.brief examples) r rfl rfl hrun report)
    · rw [hlimit] at hsome
      cases hsome
      exact hresult
  exact ⟨hflat, htimeout, hwide, hconflict, hexhausted _ hwide, hexhausted _ hconflict⟩

end TapeBreeder
