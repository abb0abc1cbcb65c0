/-!
# Charges

A charge is what a candidate pays for a failure. Charges are natural numbers up to a limit, and
sums and products stop at the limit instead of passing it.

`Charge.ofNat` clamps a natural number to a charge. It is a homomorphism (`ofNat_add`,
`ofNat_mul`), so a formula over charges is the same formula over natural numbers, clamped once.
-/

namespace TapeBreeder

/-- The largest amount that a charge can have: the largest number of 64 bits. -/
def Charge.limit : Nat :=
  18446744073709551615

/-- An amount of at most `Charge.limit`. -/
@[ext] structure Charge where
  amount : Nat
  amount_le : amount ≤ Charge.limit
deriving DecidableEq

namespace Charge

/-- The charge nearest to a natural number. -/
def ofNat (n : Nat) : Charge :=
  ⟨min n limit, Nat.min_le_right n limit⟩

instance (n : Nat) : OfNat Charge n :=
  ⟨ofNat n⟩

instance : Zero Charge :=
  ⟨ofNat 0⟩

/-- Addition that stops at the limit. -/
instance : Add Charge :=
  ⟨fun a b => ofNat (a.amount + b.amount)⟩

/-- Multiplication that stops at the limit. -/
instance : Mul Charge :=
  ⟨fun a b => ofNat (a.amount * b.amount)⟩

instance : LE Charge :=
  ⟨fun a b => a.amount ≤ b.amount⟩

instance : LT Charge :=
  ⟨fun a b => a.amount < b.amount⟩

instance (a b : Charge) : Decidable (a ≤ b) :=
  inferInstanceAs (Decidable (a.amount ≤ b.amount))

instance (a b : Charge) : Decidable (a < b) :=
  inferInstanceAs (Decidable (a.amount < b.amount))

/-- The smaller of two charges. -/
instance : Min Charge :=
  ⟨fun a b => if a ≤ b then a else b⟩

/-! ## Amounts -/

@[simp] theorem amount_ofNat (n : Nat) : (ofNat n).amount = min n limit :=
  rfl

@[simp] theorem amount_add (a b : Charge) : (a + b).amount = min (a.amount + b.amount) limit :=
  rfl

@[simp] theorem amount_mul (a b : Charge) : (a * b).amount = min (a.amount * b.amount) limit :=
  rfl

@[simp] theorem ofNat_amount (a : Charge) : ofNat a.amount = a :=
  Charge.ext (Nat.min_eq_left a.amount_le)

/-! ## Clamping is a homomorphism -/

theorem ofNat_add (m n : Nat) : ofNat (m + n) = ofNat m + ofNat n := by
  ext
  simp only [amount_ofNat, amount_add]
  omega

theorem ofNat_mul (m n : Nat) : ofNat (m * n) = ofNat m * ofNat n := by
  ext
  simp only [amount_ofNat, amount_mul]
  rcases Nat.le_total m limit with hm | hm
  · rcases Nat.le_total n limit with hn | hn
    · rw [Nat.min_eq_left hm, Nat.min_eq_left hn]
    · rw [Nat.min_eq_left hm, Nat.min_eq_right hn]
      rcases Nat.eq_zero_or_pos m with rfl | h
      · simp
      · have h₁ : limit ≤ m * limit := Nat.le_mul_of_pos_left limit h
        have h₂ : m * limit ≤ m * n := Nat.mul_le_mul_left m hn
        omega
  · rw [Nat.min_eq_right hm]
    rcases Nat.eq_zero_or_pos n with rfl | h
    · simp
    · have h₁ : limit ≤ min n limit * limit :=
        Nat.le_mul_of_pos_left limit (by have : 0 < limit := by decide
                                         omega)
      have h₂ : m ≤ m * n := Nat.le_mul_of_pos_right m h
      rw [Nat.mul_comm limit]
      omega

end Charge

end TapeBreeder
