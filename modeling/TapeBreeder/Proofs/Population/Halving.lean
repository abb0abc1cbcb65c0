import Mathlib.Algebra.Ring.Parity
import TapeBreeder.Proofs.Population.Phases

/-!
# Keeping half

The number of programs that survive is a product of doubles that is rounded before it is cut down to
its whole part. Rounding does not pass a number of at most 53 bits, so a ratio of one half or more
does keep half of the scored programs.

* `Binary64.le_roundUnits` — what rounding does not go below.
* `half_le_length_cull` — half of the programs, and half of one more at most, are kept.
-/

namespace TapeBreeder

namespace Binary64

/-! ## Rounding -/

/-- Rounding to the nearest number does not go below the quotient that is rounded down. -/
theorem div_le_divNearest (num den : Nat) : num / den ≤ divNearest num den := by
  unfold divNearest
  dsimp only
  split
  · exact Nat.le_refl _
  · split
    · exact Nat.le_succ _
    · exact Nat.le_add_right _ _

/-- A multiple of a power of two with at most 53 significant bits needs no rounding, so nothing that
is at least as large is rounded to less. -/
theorem le_roundUnits {m a num den : Nat} (hm : m < 2 ^ 53) (hden : 0 < den)
    (h : m * 2 ^ a * den ≤ num) : m * 2 ^ a ≤ roundUnits num den := by
  have hquotient : m * 2 ^ a ≤ num / den := (Nat.le_div_iff_mul_le hden).mpr h
  have hfloor : ∀ k, k = (num / den).log2 - 52 →
      num / den / 2 ^ k * 2 ^ k ≤ roundUnits num den := by
    rintro k rfl
    rw [Nat.div_div_eq_div_mul]
    exact Nat.mul_le_mul_right _ (div_le_divNearest _ _)
  generalize hk : (num / den).log2 - 52 = k at hfloor
  refine Nat.le_trans ?_ (hfloor k rfl)
  by_cases hfine : k ≤ a
  · -- The step of the rounding divides the number.
    have hsplit : m * 2 ^ a = m * 2 ^ (a - k) * 2 ^ k := by
      rw [Nat.mul_assoc, ← Nat.pow_add, Nat.sub_add_cancel hfine]
    rw [hsplit] at hquotient ⊢
    exact Nat.mul_le_mul_right _ ((Nat.le_div_iff_mul_le (Nat.two_pow_pos k)).mpr hquotient)
  · -- The step is larger, so the quotient begins with a power of two above the number.
    have hlog : (num / den).log2 = 52 + k := by omega
    have hne : num / den ≠ 0 := by
      intro hzero
      rw [hzero, Nat.log2_zero] at hlog
      omega
    have hpower : 2 ^ 52 * 2 ^ k ≤ num / den := by
      rw [← Nat.pow_add, ← hlog]
      exact Nat.log2_self_le hne
    have hleading : 2 ^ 52 ≤ num / den / 2 ^ k :=
      (Nat.le_div_iff_mul_le (Nat.two_pow_pos k)).mpr hpower
    have hbelow : 2 ^ a ≤ 2 ^ (k - 1) := Nat.pow_le_pow_right Nat.two_pos (by omega)
    have hdouble : 2 ^ k = 2 * 2 ^ (k - 1) := by
      rw [← Nat.pow_succ']
      congr 1
      omega
    have hbits : 2 ^ 53 = 2 ^ 52 * 2 := Nat.pow_succ 2 52
    calc m * 2 ^ a ≤ 2 ^ 53 * 2 ^ (k - 1) := Nat.mul_le_mul (Nat.le_of_lt hm) hbelow
      _ = 2 ^ 52 * 2 ^ k := by rw [hbits, hdouble, Nat.mul_assoc]
      _ ≤ num / den / 2 ^ k * 2 ^ k := Nat.mul_le_mul_right _ hleading

/-- The units of one half are a power of two. -/
theorem exists_one_eq : ∃ k, one = 2 * 2 ^ k := by
  refine ⟨1073, ?_⟩
  decide +kernel

/-- Half of the units of one are still units: one half can be written exactly. -/
theorem half_pos : 0 < one / 2 := by
  decide +kernel

theorem half_eq : ofRatio false 1 2 = finite false (one / 2) := by
  decide +kernel

/-- What is at least one half is an infinity or has at least half the units of one. -/
theorem of_half_le {x : Binary64} (h : ofRatio false 1 2 ≤ x) :
    x = infinite false ∨ ∃ units, x = finite false units ∧ one / 2 ≤ units := by
  rw [half_eq] at h
  cases x with
  | nan => exact absurd h Bool.false_ne_true
  | infinite negative =>
    cases negative with
    | false => exact .inl rfl
    | true => exact absurd h Bool.false_ne_true
  | finite negative units =>
    have hsigned : signed false (one / 2) ≤ signed negative units := of_decide_eq_true h
    have hhalf := half_pos
    cases negative with
    | false => exact .inr ⟨units, rfl, Int.ofNat_le.mp hsigned⟩
    | true =>
      -- Nothing below zero reaches one half.
      have hnegative : ((one / 2 : Nat) : Int) ≤ -(units : Int) := hsigned
      omega

/-- The units of a natural number are not fewer than those of its exact value. -/
theorem of_ofNat {count : Nat} (hcount : count < 2 ^ 53) :
    ofNat count = infinite false ∨ ∃ units, ofNat count = finite false units ∧
      count * one ≤ units := by
  have hunits : count * one ≤ roundUnits (count * one) 1 := by
    rcases exists_one_eq with ⟨k, hone⟩
    rw [← Nat.pow_succ'] at hone
    rw [hone]
    exact le_roundUnits hcount Nat.one_pos (Nat.le_of_eq (Nat.mul_one _))
  unfold ofNat ofRatio ofUnits
  split
  · exact .inl rfl
  · exact .inr ⟨_, rfl, hunits⟩

/-- What is too large for a double is clamped like what is too large for a whole number. -/
theorem le_truncate_ofUnits (units : Nat) :
    min (units / one) (UInt64.size - 1) ≤ (ofUnits false units).truncate := by
  unfold ofUnits
  split
  · exact Nat.min_le_right _ _
  · exact Nat.le_refl _

/-- The exact product of a number and one half has no more bits than the number, so rounding a
product that is at least as large does not go below it. -/
theorem half_le_of_product {count units : Nat} (hcount : count < 2 ^ 53)
    (h : count * one * (one / 2) ≤ units) : count / 2 ≤ roundUnits units one / one := by
  rcases exists_one_eq with ⟨k, hone⟩
  have hpower : one / 2 = 2 ^ k := by omega
  have hpos : 0 < one := Nat.lt_of_lt_of_le half_pos (Nat.div_le_self one 2)
  have hexact : count * 2 ^ k * one ≤ units := by
    rw [hpower, Nat.mul_right_comm] at h
    exact h
  have hrounded : count * 2 ^ k ≤ roundUnits units one := le_roundUnits hcount hpos hexact
  apply (Nat.le_div_iff_mul_le hpos).mpr
  -- Halving the number loses what is odd, and rounding the product loses nothing that an exact half
  -- has.
  calc count / 2 * one = count / 2 * 2 * 2 ^ k := by rw [hone, Nat.mul_assoc]
    _ ≤ count * 2 ^ k := Nat.mul_le_mul_right _ (Nat.div_mul_le_self count 2)
    _ ≤ roundUnits units one := hrounded

/-- The whole part of a product with one half or more is at least half of the number. -/
theorem half_le_truncate_mul {count : Nat} {x : Binary64} (hcount : count < 2 ^ 53)
    (hx : ofRatio false 1 2 ≤ x) : count / 2 ≤ ((ofNat count).mul x).truncate := by
  have hclamp : count / 2 ≤ UInt64.size - 1 := by
    have hsize : UInt64.size = 2 ^ 64 := rfl
    omega
  have hhalf := half_pos
  -- Either factor may be an infinity, which is more than enough, or a number of units.
  rcases of_ofNat hcount with hcounted | ⟨units, hcounted, hunits⟩ <;>
    rcases of_half_le hx with rfl | ⟨factor, rfl, hfactor⟩ <;> rw [hcounted]
  · exact hclamp
  · -- Nothing infinite is multiplied by zero here.
    have hne : factor ≠ 0 := by omega
    rw [mul, if_neg hne]
    exact hclamp
  · by_cases hzero : units = 0
    · have hnone : count = 0 := by
        rw [hzero] at hunits
        rcases Nat.mul_eq_zero.mp (Nat.le_zero.mp hunits) with hcount | hone
        · exact hcount
        · omega
      rw [hnone]
      exact Nat.zero_le _
    · rw [mul, if_neg hzero]
      exact hclamp
  · have hproduct : count * one * (one / 2) ≤ units * factor := Nat.mul_le_mul hunits hfactor
    have hkept := half_le_of_product hcount hproduct
    exact Nat.le_trans (Nat.le_min.mpr ⟨hkept, hclamp⟩) (le_truncate_ofUnits _)

end Binary64

/-! ## Survivors -/

/-- A ratio of one half or more keeps half of the scored programs, rounded down. -/
theorem half_le_length_cull {scored : List ScoredProgram} {ratio : Binary64}
    (hsize : scored.length < 2 ^ 53) (hratio : .ofRatio false 1 2 ≤ ratio) :
    scored.length / 2 ≤ (cull scored ratio).length := by
  have hproduct := Binary64.half_le_truncate_mul hsize hratio
  rw [length_cull, keepCount]
  omega

end TapeBreeder
