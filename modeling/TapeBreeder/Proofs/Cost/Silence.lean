import TapeBreeder.Proofs.Cost.Budget
import TapeBreeder.Proofs.Cost.Exact
import TapeBreeder.Proofs.Machine.Faults

/-!
# Silence and timeouts

A run out of time is charged as if nothing had been printed, and some more. So of two programs that
never print anything, one that halts on every example is better than one that does not, whatever the
policy and the targets are: the first pays for its silence, and the second pays for its silence and
for each of its timeouts.

* `Exact.silence` — the amount for printing nothing on any example.
* `Program.IsMute`, `Program.lateness` — programs that print nothing, and how often they run out of
  time.
* `Program.IsMute.baseCost_eq` — what a mute program pays.
* `late_ranks_below_silent` — the two programs compared.
-/

namespace TapeBreeder

/-- The order of costs is a test on their amounts. Here it is said of charges, for which the sums
below are known. -/
theorem Cost.valid_lt_valid_iff {a b : Charge} : valid a < valid b ↔ a < b := by
  show decide (b.amount ≤ a.amount) = false ↔ a.amount < b.amount
  rw [decide_eq_false_iff_not, Nat.not_le]

/-- The amount for printing nothing on any example. -/
def Exact.silence (options : CostOptions) (examples : List Example) : Nat :=
  (examples.map fun pair => Exact.pair options "" pair.target).sum

namespace Program

/-- Whether a program halts on every example without having printed anything. -/
def IsSilent (clock : Clock) (options : CostOptions) (examples : List Example) (p : Program) :
    Prop :=
  ∀ pair ∈ examples, p.evaluate clock pair.input options.timeoutMs = .ok ""

/-- Whether a program shows nothing on any example: it halts without having printed anything, or it
runs out of time. -/
def IsMute (clock : Clock) (options : CostOptions) (examples : List Example) (p : Program) :
    Prop :=
  ∀ pair ∈ examples, p.evaluate clock pair.input options.timeoutMs = .ok "" ∨
    p.evaluate clock pair.input options.timeoutMs = .error (.timeout options.timeoutMs)

/-- The number of examples on which a program runs out of time. -/
def lateness (clock : Clock) (options : CostOptions) (examples : List Example) (p : Program) :
    Nat :=
  examples.countP fun pair => p.timesOut clock options.timeoutMs pair.input

variable {clock : Clock} {options : CostOptions} {examples : List Example} {p : Program}

theorem lateness_pos_iff : 0 < p.lateness clock options examples ↔ ∃ pair ∈ examples,
    p.evaluate clock pair.input options.timeoutMs = .error (.timeout options.timeoutMs) := by
  unfold lateness timesOut
  simp only [List.countP_pos_iff, decide_eq_true_eq]

/-- A silent program is a mute one that is never late, so what mute programs pay is computed once
for both. -/
theorem IsSilent.isMute (h : p.IsSilent clock options examples) :
    p.IsMute clock options examples := by
  intro pair hpair
  exact .inl (h pair hpair)

theorem IsSilent.lateness_eq_zero (h : p.IsSilent clock options examples) :
    p.lateness clock options examples = 0 := by
  apply Nat.eq_zero_of_not_pos
  rw [lateness_pos_iff]
  rintro ⟨pair, hpair, hlate⟩
  rw [h pair hpair] at hlate
  cases hlate

/-! ## What mute programs pay -/

/-- Each example costs silence, and a timeout on top of it where the program is late. -/
theorem IsMute.total_eq (h : p.IsMute clock options examples) :
    Exact.total clock options examples p = Exact.silence options examples +
      p.lateness clock options examples * options.penalties.timeout.amount := by
  induction examples with
  | nil => simp [Exact.total, Exact.silence, lateness]
  | cons pair rest ih =>
    rcases List.forall_mem_cons.mp h with ⟨hpair, hrest⟩
    have htotal := ih hrest
    unfold Exact.total Exact.silence lateness at htotal ⊢
    rw [List.map_cons, List.sum_cons, htotal, List.map_cons, List.sum_cons, List.countP_cons]
    -- The example costs the same in both cases but for the penalty, which is added exactly where it
    -- is counted.
    rcases hpair with hhalts | hlate
    · have hpunctual : p.timesOut clock options.timeoutMs pair.input = false := by
        simp [timesOut, hhalts]
      rw [hhalts, hpunctual, if_neg Bool.false_ne_true, Nat.add_zero]
      exact (Nat.add_assoc _ _ _).symm
    · have htimesOut : p.timesOut clock options.timeoutMs pair.input = true := by
        simp [timesOut, hlate]
      rw [hlate, htimesOut, if_pos rfl, Nat.succ_mul, Exact.answer, Exact.timeout]
      omega

/-- A mute program can be scored if there is an example to show that it can be loaded, and if no
timeout disqualifies it. -/
theorem IsMute.baseCost_eq (h : p.IsMute clock options examples) (hne : examples ≠ [])
    (hpolicy : options.timeoutPolicy = .disqualify → p.lateness clock options examples = 0) :
    (p.baseCost clock options examples).cost =
      .valid (.ofNat (Exact.silence options examples +
        p.lateness clock options examples * options.penalties.timeout.amount)) := by
  -- A mute program is never stopped by its brackets, since it halts or runs out of time.
  have hbrackets : ∀ pair ∈ examples, ∀ fault,
      p.evaluate clock pair.input options.timeoutMs ≠ .error (.brackets fault) := by
    intro pair hpair fault hfault
    rcases h pair hpair with hhalts | hlate
    · rw [hfault] at hhalts
      cases hhalts
    · rw [hfault] at hlate
      cases hlate
  rw [← h.total_eq]
  apply baseCost_eq_valid
  rw [Ne, baseCost_eq_invalid_iff]
  rintro (⟨fault, hbuild⟩ | ⟨pair, hpair, fault, hfault⟩ | ⟨hdisqualify, hlate⟩)
  · rcases List.exists_mem_of_ne_nil examples hne with ⟨pair, hpair⟩
    exact hbrackets pair hpair fault (evaluate_of_build_eq_error hbuild)
  · exact hbrackets pair hpair fault hfault
  · have hpos := lateness_pos_iff.mpr hlate
    rw [hpolicy hdisqualify] at hpos
    exact Nat.lt_irrefl 0 hpos

end Program

/-- Let one program halt on every example without printing anything, and let another one either do
so or run out of time, which it does at least once. Where timeouts are penalized at all, the second
program costs more than the first, unless the first costs the largest number of 64 bits already;
then they cost the same. Where timeouts disqualify, the second program is invalid, and so it is
worse than the first. -/
theorem late_ranks_below_silent {clock : Clock} {options : CostOptions} {examples : List Example}
    {late silent : Program} (hsilent : silent.IsSilent clock options examples)
    (hmute : late.IsMute clock options examples)
    (hlate : ∃ pair ∈ examples,
      late.evaluate clock pair.input options.timeoutMs = .error (.timeout options.timeoutMs)) :
    ∃ paid, (silent.baseCost clock options examples).cost = .valid paid ∧
      (options.timeoutPolicy = .penalize → 0 < options.penalties.timeout →
        (paid.amount ≠ 2 ^ 64 - 1 →
          (silent.baseCost clock options examples).cost <
            (late.baseCost clock options examples).cost) ∧
        (paid.amount = 2 ^ 64 - 1 →
          (late.baseCost clock options examples).cost =
            (silent.baseCost clock options examples).cost)) ∧
      (options.timeoutPolicy = .disqualify →
        (late.baseCost clock options examples).cost = .invalid ∧
          (silent.baseCost clock options examples).cost <
            (late.baseCost clock options examples).cost) := by
  -- The late example shows that there are examples at all, and so that both programs can be loaded.
  have hne : examples ≠ [] := by
    rintro rfl
    rcases hlate with ⟨pair, hpair, -⟩
    cases hpair
  have hpaid : (silent.baseCost clock options examples).cost =
      .valid (.ofNat (Exact.silence options examples)) := by
    have hcost := hsilent.isMute.baseCost_eq hne fun _ => hsilent.lateness_eq_zero
    rwa [hsilent.lateness_eq_zero, Nat.zero_mul, Nat.add_zero] at hcost
  refine ⟨_, hpaid, ?_, ?_⟩
  · intro hpenalize hpenalty
    have hcost := hmute.baseCost_eq hne fun hdisqualify => by
      rw [hpenalize] at hdisqualify
      cases hdisqualify
    -- Without a limit the late program is dearer. Stopping at the limit keeps this up to the limit
    -- itself.
    have hmore : Exact.silence options examples < Exact.silence options examples +
        late.lateness clock options examples * options.penalties.timeout.amount :=
      Nat.lt_add_of_pos_right (Nat.mul_pos (Program.lateness_pos_iff.mpr hlate) hpenalty)
    rw [hpaid, hcost]
    constructor
    · intro hbelow
      exact Cost.valid_lt_valid_iff.mpr ((Charge.ofNat_lt_ofNat_iff hmore).mpr hbelow)
    · intro hlimit
      exact congrArg Cost.valid (Charge.ofNat_eq_of_limit (Nat.le_of_lt hmore) hlimit)
  · intro hdisqualify
    have hcost : (late.baseCost clock options examples).cost = .invalid :=
      Program.baseCost_eq_invalid_iff.mpr (.inr (.inr ⟨hdisqualify, hlate⟩))
    rw [hpaid, hcost]
    exact ⟨rfl, rfl⟩

/-- Two programs read a character, and the second one then loops on it for ever, if it is not zero.
With a penalty for timeouts it costs more, although the target is empty where it does not halt.
Where a mismatch alone costs as much as can be, they cost the same. Where timeouts disqualify, the
second one is invalid. -/
theorem late_ranks_below_silent_loop :
    let examples : List Example := [⟨"", "b"⟩, ⟨"a", ""⟩]
    let silent := fun options => ((Program.parse ",").baseCost .slow options examples).cost
    let late := fun options => ((Program.parse ",[]").baseCost .slow options examples).cost
    silent {} = .valid 256 ∧ silent {} < late {} ∧ late .steep = silent .steep ∧
      late .severe = .invalid := by
  intro examples silent late
  have hsilent : ∀ pair ∈ examples, (Program.parse ",").evaluate .slow pair.input 10 = .ok "" := by
    decide +kernel
  have hmute : ∀ pair ∈ examples, (Program.parse ",[]").evaluate .slow pair.input 10 = .ok "" ∨
      (Program.parse ",[]").evaluate .slow pair.input 10 = .error (.timeout 10) := by
    decide +kernel
  have hlate : ∃ pair ∈ examples,
      (Program.parse ",[]").evaluate .slow pair.input 10 = .error (.timeout 10) := by
    decide +kernel
  have hcost : silent {} = .valid 256 := by decide +kernel
  have hlimit : silent .steep = .valid (.ofNat (2 ^ 64 - 1)) := by decide +kernel
  rcases @late_ranks_below_silent .slow {} _ _ _ hsilent hmute hlate with
    ⟨paid, hpaid, hpenalized, -⟩
  rcases @late_ranks_below_silent .slow .steep _ _ _ hsilent hmute hlate with
    ⟨most, hmost, hsteep, -⟩
  rcases @late_ranks_below_silent .slow .severe _ _ _ hsilent hmute hlate with
    ⟨-, -, -, hdisqualified⟩
  obtain rfl : paid = 256 := Cost.valid.inj (hpaid.symm.trans hcost)
  obtain rfl : most = .ofNat (2 ^ 64 - 1) := Cost.valid.inj (hmost.symm.trans hlimit)
  exact ⟨hcost, (hpenalized rfl (by decide)).1 (by decide), (hsteep rfl (by decide)).2 rfl,
    (hdisqualified rfl).1⟩

end TapeBreeder
