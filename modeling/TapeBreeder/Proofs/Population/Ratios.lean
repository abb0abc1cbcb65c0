import Mathlib.Data.Nat.Log
import TapeBreeder.Proofs.Population.Halving
import TapeBreeder.Proofs.Search.Populations

/-!
# Populations under two ratios

A ratio says what part of the scored programs is kept, and each program that is kept has two
children. So a higher ratio makes a larger population, up to the size in the settings, and a lower
one makes a smaller population. The product of the ratio and the number of programs is rounded, but
rounding keeps the order.

* `Binary64.divNearest_mono`, `Binary64.roundUnits_mono` — rounding keeps the order.
* `keepCount_mono` — a higher ratio keeps no fewer programs.
* `size_rises_with_ratio` — the sizes of two populations that are bred under two ratios, and exactly
  where they are the same.
* `lower_ratio_shrinks` — a lower ratio does not make a larger population.
-/

namespace TapeBreeder

namespace Binary64

/-! ## Rounding keeps the order -/

/-- Rounding a quotient to the nearest number adds at most one to its whole part. -/
theorem divNearest_le_succ (num den : Nat) : divNearest num den ≤ num / den + 1 := by
  unfold divNearest
  dsimp only
  split
  · exact Nat.le_succ _
  · split
    · exact Nat.le_refl _
    · have hparity := Nat.mod_lt (num / den) Nat.two_pos
      omega

/-- Rounding to the nearest number keeps the order of quotients with one denominator. -/
theorem divNearest_mono {num num' : Nat} (den : Nat) (h : num ≤ num') :
    divNearest num den ≤ divNearest num' den := by
  -- If the whole parts differ, the smaller one is rounded to the larger one at most.
  rcases Nat.lt_or_eq_of_le (Nat.div_le_div_right (c := den) h) with hlt | heq
  · exact Nat.le_trans (divNearest_le_succ num den)
      (Nat.le_trans hlt (div_le_divNearest num' den))
  · -- Between two multiples of the denominator the remainders are in order.
    have hrest : num % den ≤ num' % den := by
      have hnum := Nat.div_add_mod num den
      have hnum' := Nat.div_add_mod num' den
      rw [heq] at hnum
      omega
    unfold divNearest
    dsimp only
    rw [heq]
    split_ifs <;> omega

/-- The step of the rounding leaves at most 53 bits, so the next power of two is not passed. -/
theorem roundUnits_le (num den : Nat) :
    roundUnits num den ≤ 2 ^ (53 + ((num / den).log2 - 52)) := by
  generalize hk : (num / den).log2 - 52 = k
  have hquotient : num / den < 2 ^ 53 * 2 ^ k := by
    rw [← Nat.pow_add]
    exact Nat.lt_of_lt_of_le Nat.lt_log2_self (Nat.pow_le_pow_right Nat.two_pos (by omega))
  have hleading : num / (den * 2 ^ k) < 2 ^ 53 := by
    rw [← Nat.div_div_eq_div_mul]
    exact Nat.div_lt_of_lt_mul (by rwa [Nat.mul_comm])
  have hrounded : divNearest num (den * 2 ^ k) ≤ 2 ^ 53 :=
    Nat.le_trans (divNearest_le_succ _ _) hleading
  rw [Nat.pow_add]
  subst hk
  exact Nat.mul_le_mul_right _ hrounded

/-- Rounding to 53 bits keeps the order. This is not clear from one step alone, because larger
numbers are rounded in larger steps. -/
theorem roundUnits_mono {num num' den : Nat} (hden : 0 < den) (h : num ≤ num') :
    roundUnits num den ≤ roundUnits num' den := by
  have hquotient : num / den ≤ num' / den := Nat.div_le_div_right h
  have hlog : (num / den).log2 ≤ (num' / den).log2 := by
    rw [Nat.log2_eq_log_two, Nat.log2_eq_log_two]
    exact Nat.log_mono_right hquotient
  -- Both numbers are rounded in the same steps, or the larger one in larger steps.
  rcases Nat.eq_or_lt_of_le (Nat.sub_le_sub_right hlog 52) with hstep | hstep
  · unfold roundUnits
    dsimp only
    rw [hstep]
    exact Nat.mul_le_mul_right _ (divNearest_mono _ h)
  · -- The larger number is rounded in larger steps, beyond a power of two between the two.
    have hlarge : (num' / den).log2 = 52 + ((num' / den).log2 - 52) := by omega
    have hne : num' / den ≠ 0 := by
      intro hzero
      rw [hzero, Nat.log2_zero] at hlarge hstep
      omega
    have hpower : 1 * 2 ^ (num' / den).log2 * den ≤ num' := by
      rw [Nat.one_mul]
      exact (Nat.le_div_iff_mul_le hden).mp (Nat.log2_self_le hne)
    calc roundUnits num den ≤ 2 ^ (53 + ((num / den).log2 - 52)) := roundUnits_le num den
      _ ≤ 2 ^ (num' / den).log2 := Nat.pow_le_pow_right Nat.two_pos (by omega)
      _ = 1 * 2 ^ (num' / den).log2 := (Nat.one_mul _).symm
      _ ≤ roundUnits num' den := le_roundUnits (by decide) hden hpower

/-- What is too large for a double is clamped to the largest whole number. -/
theorem truncate_ofUnits_mono {units units' : Nat} (h : units ≤ units') :
    (ofUnits false units).truncate ≤ (ofUnits false units').truncate := by
  unfold ofUnits
  by_cases hlarge : overflow ≤ units'
  · rw [if_pos hlarge]
    split
    · exact Nat.le_refl _
    · exact Nat.min_le_right _ _
  · rw [if_neg hlarge, if_neg (fun hlarge' => hlarge (Nat.le_trans hlarge' h))]
    have hwhole : units / one ≤ units' / one := Nat.div_le_div_right h
    simp only [truncate]
    omega

/-- The whole part of a product does not fall when a positive factor grows. -/
theorem truncate_mul_mono (count : Nat) {units units' : Nat} (hpos : 0 < units)
    (h : units ≤ units') :
    ((ofNat count).mul (finite false units)).truncate ≤
      ((ofNat count).mul (finite false units')).truncate := by
  have hone : 0 < one := Nat.lt_of_lt_of_le half_pos (Nat.div_le_self one 2)
  unfold ofNat ofRatio
  generalize roundUnits (count * one) 1 = counted
  by_cases hlarge : overflow ≤ counted
  · rw [ofUnits, if_pos hlarge, mul, mul, if_neg (by omega), if_neg (by omega)]
  · rw [ofUnits, if_neg hlarge, mul, mul]
    exact truncate_ofUnits_mono (roundUnits_mono hone (Nat.mul_le_mul_left counted h))

/-- A positive number that is at most one is a positive number of units. -/
theorem exists_units_of_pos {x : Binary64} (hpos : ofNat 0 < x) (hle : x ≤ ofNat 1) :
    ∃ units, 0 < units ∧ x = finite false units := by
  have hzero : ofNat 0 = finite false 0 := by decide +kernel
  have hone : ofNat 1 = finite false one := by decide +kernel
  rw [hzero] at hpos
  rw [hone] at hle
  cases x with
  | nan => exact absurd hpos Bool.false_ne_true
  | infinite negative =>
    -- The one infinity is not positive, and the other is above one.
    cases negative with
    | false => exact absurd hle Bool.false_ne_true
    | true => exact absurd hpos Bool.false_ne_true
  | finite negative units =>
    have hsigned : signed false 0 < signed negative units := of_decide_eq_true hpos
    cases negative with
    | false => exact ⟨units, Int.ofNat_lt.mp hsigned, rfl⟩
    | true =>
      have hnegative : (0 : Int) < -(units : Int) := hsigned
      omega

end Binary64

/-! ## Survivors -/

/-- Settings with another ratio of survivors. -/
def RunConfig.withRatio (config : RunConfig) (ratio : Binary64) : RunConfig :=
  { config with evolve := { config.evolve with cullRatio := ratio } }

/-- What validation leaves of ratios: they are above zero and at most one. -/
theorem RunConfig.ratio_bounds {config : RunConfig} (h : config.validate = .ok ()) :
    Binary64.ofNat 0 < config.evolve.cullRatio ∧ config.evolve.cullRatio ≤ Binary64.ofNat 1 := by
  unfold validate at h
  dsimp only at h
  split at h
  · cases h
  · split at h
    · cases h
    · next hratio => exact not_not.mp hratio

section

variable {lower higher : Binary64}
  (hlower : Binary64.ofNat 0 < lower ∧ lower ≤ Binary64.ofNat 1)
  (hhigher : Binary64.ofNat 0 < higher ∧ higher ≤ Binary64.ofNat 1) (hle : lower ≤ higher)

include hlower hhigher hle

/-- With a higher ratio, the rounded product is not smaller, and so no fewer programs are kept. -/
theorem keepCount_mono (count : Nat) : keepCount count lower ≤ keepCount count higher := by
  rcases Binary64.exists_units_of_pos hlower.1 hlower.2 with ⟨units, hpos, rfl⟩
  rcases Binary64.exists_units_of_pos hhigher.1 hhigher.2 with ⟨units', -, rfl⟩
  have hsigned : Binary64.signed false units ≤ Binary64.signed false units' :=
    of_decide_eq_true hle
  have hwhole := Binary64.truncate_mul_mono count hpos (Int.ofNat_le.mp hsigned)
  unfold keepCount
  omega

theorem length_cull_mono (scored : List ScoredProgram) :
    (cull scored lower).length ≤ (cull scored higher).length := by
  have hkept := keepCount_mono hlower hhigher hle scored.length
  rw [length_cull, length_cull]
  omega

end

/-! ## Sizes -/

/-- The size of the population that is bred from an evaluation under some settings. -/
def RunConfig.sizeAfter {σ : Type} [RandomSource σ] (config : RunConfig) (evaluation : Evaluation)
    (source : σ) : Nat :=
  ((nextGeneration config.evolve config.mutation evaluation).run source).1.length

/-- What is drawn makes no difference to the size. -/
theorem RunConfig.sizeAfter_eq {σ : Type} [RandomSource σ] (config : RunConfig)
    (evaluation : Evaluation) (source : σ) :
    config.sizeAfter evaluation source = min config.evolve.populationSize.toNat
      (2 * ((cull evaluation.scored config.evolve.cullRatio).length + evaluation.invalid)) :=
  surely_length_nextGeneration config.evolve config.mutation evaluation source

/-- Let two settings that are accepted differ in their ratios only. Under the lower ratio no more of
the scored programs are kept and, whatever is drawn, no larger population is bred. The two
populations are of one size exactly if both ratios keep as many programs, or if the lower one is
enough for a population of the size in the settings. -/
theorem size_rises_with_ratio {σ : Type} [RandomSource σ] {config : RunConfig}
    {lower higher : Binary64} (hlower : (config.withRatio lower).validate = .ok ())
    (hhigher : (config.withRatio higher).validate = .ok ()) (hle : lower ≤ higher)
    (evaluation : Evaluation) (source other : σ) :
    let kept := fun ratio => (cull evaluation.scored ratio).length
    let size := fun ratio (source : σ) => (config.withRatio ratio).sizeAfter evaluation source
    kept lower ≤ kept higher ∧ size lower source ≤ size higher other ∧
      (size higher other ≤ size lower source ↔
        kept lower = kept higher ∨ size lower source = config.evolve.populationSize.toNat) := by
  intro kept size
  have hkept : kept lower ≤ kept higher :=
    length_cull_mono (RunConfig.ratio_bounds hlower) (RunConfig.ratio_bounds hhigher) hle
      evaluation.scored
  -- The size of a population is known from the number of survivors, whatever is drawn; what remains
  -- is arithmetic.
  have hsize : ∀ ratio source, size ratio source =
      min config.evolve.populationSize.toNat (2 * (kept ratio + evaluation.invalid)) := by
    intro ratio source
    exact (config.withRatio ratio).sizeAfter_eq evaluation source
  rw [hsize lower source, hsize higher other]
  omega

/-- An evaluation of eight programs, all of them valid, in ascending order of cost. -/
def Evaluation.graded : Evaluation where
  scored := (List.range 8).map fun i => ⟨⟨[.increment]⟩, .ofNat (i + 1), .ofNat (i + 1)⟩
  invalid := 0
  winner := none
  timeCost := false

/-- Where four programs are asked for, a ratio of one quarter is enough for them. -/
theorem size_rises_with_ratio_full :
    let config : RunConfig := { evolve := { populationSize := 4 } }
    let size := fun ratio => (config.withRatio ratio).sizeAfter .graded (⟨[]⟩ : Script)
    (config.withRatio (.ofRatio false 1 4)).validate = .ok () ∧
      (config.withRatio (.ofRatio false 1 2)).validate = .ok () ∧
      Binary64.ofRatio false 1 4 ≤ .ofRatio false 1 2 ∧
      size (.ofRatio false 1 4) ≤ size (.ofRatio false 1 2) ∧
      size (.ofRatio false 1 2) ≤ size (.ofRatio false 1 4) := by
  intro config size
  have hquarter : (config.withRatio (.ofRatio false 1 4)).validate = .ok () := by decide +kernel
  have hhalf : (config.withRatio (.ofRatio false 1 2)).validate = .ok () := by decide +kernel
  have hle : Binary64.ofRatio false 1 4 ≤ .ofRatio false 1 2 := by decide +kernel
  have hsizes := size_rises_with_ratio hquarter hhalf hle .graded (⟨[]⟩ : Script) ⟨[]⟩
  have hfull : size (.ofRatio false 1 4) = config.evolve.populationSize.toNat :=
    (RunConfig.sizeAfter_eq _ _ _).trans (by decide +kernel)
  exact ⟨hquarter, hhalf, hle, hsizes.2.1, hsizes.2.2.mpr (.inr hfull)⟩

/-- The lower of two ratios does not make the larger population. After eight programs, one quarter
leads to four programs and one half to eight. -/
theorem lower_ratio_shrinks :
    let size := fun ratio => (RunConfig.withRatio {} ratio).sizeAfter .graded (⟨[]⟩ : Script)
    (RunConfig.withRatio {} (.ofRatio false 1 4)).validate = .ok () ∧
      (RunConfig.withRatio {} (.ofRatio false 1 2)).validate = .ok () ∧
      Binary64.ofRatio false 1 4 ≤ .ofRatio false 1 2 ∧
      Evaluation.graded.scored ≠ [] ∧
      Evaluation.graded.scored.Pairwise (fun a b => a.cost ≤ b.cost) ∧
      size (.ofRatio false 1 4) = 4 ∧ size (.ofRatio false 1 2) = 8 := by
  intro size
  refine ⟨by decide +kernel, by decide +kernel, by decide +kernel, by decide, by decide, ?_, ?_⟩
  · exact (RunConfig.sizeAfter_eq _ _ _).trans (by decide +kernel)
  · exact (RunConfig.sizeAfter_eq _ _ _).trans (by decide +kernel)

end TapeBreeder
