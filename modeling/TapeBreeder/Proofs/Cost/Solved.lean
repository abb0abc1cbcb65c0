import TapeBreeder.Proofs.Cost.Sum
import TapeBreeder.Proofs.Machine.Answers

/-!
# Programs that cost nothing

A program costs nothing if it can be loaded and is charged nothing for any example. Whether it
then solves the examples depends on what the settings charge for.

* `Program.baseCost_eq_zero_iff` — where a base cost of zero comes from.
* `Cost.withRuntime_eq_zero_iff` — runtime neither makes a program perfect nor spoils one.
* `Program.evaluate_of_baseCost_eq_zero` — where every miss is charged, a program that costs
  nothing prints every target.
* `cost_eq_zero_iff_prints` — there, a cost of zero, with or without runtime, says of a program just
  that it can be loaded and prints every target. What cannot be loaded is invalid even where nothing
  is asked of it (`cost_unloadable_of_no_examples`).
-/

namespace TapeBreeder

variable {clock : Clock} {options : CostOptions} {examples : List Example} {p : Program}

/-! ## Scores of zero -/

namespace Program

/-- Whether a program is charged nothing for any example. -/
def IsFree (clock : Clock) (options : CostOptions) (examples : List Example) (p : Program) : Prop :=
  ∀ pair ∈ examples, (p.ending clock options pair.input).charge? options pair.target = some 0

/-- A program that cannot be loaded is not free of charge even where there are no examples. -/
theorem baseCost_eq_zero_iff :
    (p.baseCost clock options examples).cost = .valid 0 ↔
      p.isLoadable ∧ p.IsFree clock options examples := by
  by_cases h : p.isLoadable
  · -- A sum of costs is zero if all of them are.
    rw [baseCost_of_isLoadable h, ← Cost.zero_def, Cost.sum_eq_zero_iff, List.forall_mem_map]
    simp only [pairCost, Cost.ofCharge?_eq_zero_iff, IsFree, h, true_and]
  · rw [baseCost_of_not_isLoadable h]
    simp [h]

end Program

/-- Runtime neither makes a program perfect nor spoils one that is. -/
theorem Cost.withRuntime_eq_zero_iff {nanoseconds : Nat} {c : Cost} :
    c.withRuntime options nanoseconds = .valid 0 ↔ c = .valid 0 := by
  cases c with
  | invalid => exact Iff.rfl
  | valid total =>
    rw [withRuntime]
    split
    · -- Runtime is only charged to programs that are not perfect.
      next hcharged =>
      have hne := Charge.pos_iff.mp hcharged.2
      constructor
      · intro h
        exact absurd (Charge.add_eq_zero_iff.mp (Cost.valid.inj h)).1 hne
      · intro h
        exact absurd (Cost.valid.inj h) hne
    · exact Iff.rfl

/-! ## Solved examples -/

/-- Where every miss is charged, only the target itself is free. -/
theorem Outcome.charge?_eq_zero_iff (h : options.ChargesEveryMiss) {outcome : Outcome}
    {target : String} : outcome.charge? options target = some 0 ↔ outcome = .halted target := by
  cases outcome with
  | halted output =>
    rw [charge?, Option.some_inj, pairCharge_eq_zero_iff h.1, Outcome.halted.injEq]
  | failed fault => simp [charge?]
  | outOfBudget =>
    -- No program that runs out of time hits its target, and none gets away with it.
    unfold charge?
    rcases h.2 with hdisqualify | hpenalty
    · simp [hdisqualify]
    · cases options.timeoutPolicy with
      | penalize => simp [timeoutCharge_ne_zero hpenalty]
      | disqualify => simp

/-- `Outcome.charge?_eq_zero_iff` for all examples: free programs are those that print the
targets. -/
theorem Program.isFree_iff_prints (h : options.ChargesEveryMiss) :
    p.IsFree clock options examples ↔
      ∀ pair ∈ examples, p.evaluate clock pair.input options.timeoutMs = .ok pair.target := by
  have hpair : ∀ pair : Example,
      (p.ending clock options pair.input).charge? options pair.target = some 0 ↔
        p.evaluate clock pair.input options.timeoutMs = .ok pair.target := by
    intro pair
    rw [Outcome.charge?_eq_zero_iff h, evaluate_eq_ok_iff, ending]
  constructor
  · intro hfree pair hmem
    exact (hpair pair).mp (hfree pair hmem)
  · intro hprints pair hmem
    exact (hpair pair).mpr (hprints pair hmem)

/-- A program without cost can be shown with its targets as its outputs. -/
theorem Program.evaluate_of_baseCost_eq_zero (h : options.ChargesEveryMiss)
    (hcost : (p.baseCost clock options examples).cost = .valid 0) {pair : Example}
    (hpair : pair ∈ examples) :
    p.evaluate clock pair.input options.timeoutMs = .ok pair.target := by
  rcases baseCost_eq_zero_iff.mp hcost with ⟨-, hfree⟩
  exact (isFree_iff_prints h).mp hfree pair hpair

/-- A program that prints anything at all can be loaded. -/
theorem Program.isLoadable_of_evaluate {input output : String} {milliseconds : UInt64}
    (h : p.evaluate clock input milliseconds = .ok output) : p.isLoadable := by
  have hrun := evaluate_eq_ok_iff.mp h
  unfold run load at hrun
  rw [isLoadable_iff_exists_build]
  cases hbuild : JumpTable.build p.symbols with
  | ok table => exact ⟨table, rfl⟩
  | error fault =>
    rw [hbuild] at hrun
    cases hrun

/-- What holds of the examples of two parallel lists holds place by place. -/
theorem Example.forall_mem_ofLists {inputs targets : List String}
    (hlength : inputs.length = targets.length) {P : Example → Prop} :
    (∀ pair ∈ Example.ofLists inputs targets, P pair) ↔
      ∀ i : Fin inputs.length, P ⟨inputs.get i, targets.get (i.cast hlength)⟩ := by
  -- The lists are equally long, so no place of either is left out.
  have hsize : (Example.ofLists inputs targets).length = inputs.length := by
    rw [ofLists, List.length_zipWith, hlength, Nat.min_self]
  constructor
  · intro h i
    have hi : i < (Example.ofLists inputs targets).length := by
      rw [hsize]
      exact i.isLt
    have hpair := h _ (List.getElem_mem hi)
    simpa [ofLists] using hpair
  · intro h pair hmem
    rcases List.getElem_of_mem hmem with ⟨i, hi, rfl⟩
    rw [hsize] at hi
    simpa [ofLists] using h ⟨i, hi⟩

/-- Where every mismatch and every timeout is charged, a program costs nothing, whatever runtime is
measured, exactly when it can be loaded and prints every target within its budget. With at least
one example, printing every target is enough. -/
theorem cost_eq_zero_iff_prints (clock : Clock) (options : CostOptions)
    (inputs targets : List String) (p : Program) (hlength : inputs.length = targets.length)
    (hflat : 0 < options.penalties.notEqual)
    (htimeout : 0 < options.penalties.timeout ∨ options.timeoutPolicy = .disqualify) :
    (p.cost clock options (Example.ofLists inputs targets) = .valid 0 ↔
      (∃ table, JumpTable.build p.symbols = .ok table) ∧
        ∀ i : Fin inputs.length, p.evaluate clock (inputs.get i) options.timeoutMs =
          .ok (targets.get (i.cast hlength))) ∧
    (inputs ≠ [] →
      (p.cost clock options (Example.ofLists inputs targets) = .valid 0 ↔
        ∀ i : Fin inputs.length, p.evaluate clock (inputs.get i) options.timeoutMs =
          .ok (targets.get (i.cast hlength)))) := by
  have hcharges : options.ChargesEveryMiss := ⟨.inl hflat, htimeout.symm⟩
  have hprints := Example.forall_mem_ofLists hlength
    (P := fun pair => p.evaluate clock pair.input options.timeoutMs = .ok pair.target)
  -- A cost of zero is a matter of loading and of charges. Only then do the settings come in.
  have hzero : p.cost clock options (Example.ofLists inputs targets) = .valid 0 ↔
      p.isLoadable ∧ p.IsFree clock options (Example.ofLists inputs targets) :=
    Cost.withRuntime_eq_zero_iff.trans Program.baseCost_eq_zero_iff
  rw [Program.isFree_iff_prints hcharges, hprints] at hzero
  constructor
  · rw [hzero, Program.isLoadable_iff_exists_build]
  · intro hne
    rw [hzero]
    constructor
    · rintro ⟨-, hall⟩
      exact hall
    · intro hall
      -- The first example alone shows that the program can be loaded.
      have hfirst := hall ⟨0, List.length_pos_iff.mpr hne⟩
      exact ⟨Program.isLoadable_of_evaluate hfirst, hall⟩

/-- Settings under which runtime is charged. -/
def CostOptions.timed : CostOptions where
  timeCost := true

/-- Runtime is charged here, but not to a program that echoes its input; one that prints a character
with code point zero behind it, which distance does not see, is charged. -/
theorem cost_eq_zero_iff_prints_timed :
    (["ab", ""] : List String).length = ["ab", ""].length ∧
      0 < CostOptions.timed.penalties.notEqual ∧
      (0 < CostOptions.timed.penalties.timeout ∨ CostOptions.timed.timeoutPolicy = .disqualify) ∧
      (Program.parse ",[.,]").cost .steady .timed (Example.ofLists ["ab", ""] ["ab", ""]) =
        .valid 0 ∧
      (Program.parse ",.,.").cost .steady .timed (Example.ofLists ["b"] ["b"]) ≠ .valid 0 := by
  have hflat : 0 < CostOptions.timed.penalties.notEqual := by decide
  have htimeout : 0 < CostOptions.timed.penalties.timeout := by decide
  refine ⟨rfl, hflat, .inl htimeout, ?_, ?_⟩
  · apply ((cost_eq_zero_iff_prints .steady .timed ["ab", ""] ["ab", ""] (Program.parse ",[.,]") rfl
      hflat (.inl htimeout)).2 (List.cons_ne_nil _ _)).mpr
    decide +kernel
  · rw [Ne, (cost_eq_zero_iff_prints .steady .timed ["b"] ["b"] (Program.parse ",.,.") rfl hflat
      (.inl htimeout)).1]
    rintro ⟨-, hprints⟩
    exact absurd (hprints 0) (by decide +kernel)

/-- Nothing is asked of a program without examples, and yet one that cannot be loaded is invalid. -/
theorem cost_unloadable_of_no_examples :
    0 < ({} : CostOptions).penalties.notEqual ∧ 0 < ({} : CostOptions).penalties.timeout ∧
      ¬ ((Program.mk [.loopClose]).cost .steady {} (Example.ofLists [] []) = .valid 0 ↔
        ∀ i : Fin ([] : List String).length,
          (Program.mk [.loopClose]).evaluate .steady (([] : List String).get i) 10 =
            .ok (([] : List String).get i)) := by
  refine ⟨by decide, by decide, ?_⟩
  intro h
  have hfree := h.mpr fun i => i.elim0
  exact absurd hfree (by decide)

end TapeBreeder
