import TapeBreeder.Cost.Pair

/-!
# What is charged for a miss

Every part of a charge is a penalty times an amount, and penalties may be zero. So a pair can be a
miss and still be free.

* `Charge.add_eq_zero_iff`, `Charge.mul_eq_zero_iff`, `Charge.sum_eq_zero_iff` — sums and products
  that stop at the limit are zero exactly where exact ones are.
* `CostOptions.ChargesMismatches`, `CostOptions.ChargesTimeouts` — settings under which no miss is
  free; under all others some search reports a program that misses (`Proofs.Search.Winner`).
* `eq_append_of_distance_eq_zero` — the distance of code points sees all but characters with code
  point zero behind the target.
* `pairCharge_eq_zero_iff` — only a hit is free.
-/

namespace TapeBreeder

/-! ## Charges of zero -/

namespace Charge

variable {a b : Charge}

theorem eq_zero_iff : a = 0 ↔ a.amount = 0 := by
  constructor
  · intro h
    rw [h]
    rfl
  · intro h
    exact Charge.ext h

theorem pos_iff : 0 < a ↔ a ≠ 0 := by
  rw [Ne, eq_zero_iff]
  exact Nat.pos_iff_ne_zero

theorem limit_pos : 0 < limit := by
  decide

/-- Clamping takes no positive number to zero, since the limit is positive. -/
theorem ofNat_eq_zero_iff {n : Nat} : ofNat n = 0 ↔ n = 0 := by
  have hlimit := limit_pos
  rw [eq_zero_iff, amount_ofNat]
  omega

/-- No sum stops at zero: what stops is at the limit. -/
theorem add_eq_zero_iff : a + b = 0 ↔ a = 0 ∧ b = 0 := by
  have hlimit := limit_pos
  rw [eq_zero_iff, eq_zero_iff, eq_zero_iff, amount_add]
  omega

/-- A product of charges is free exactly if its penalty is or there is nothing to charge for. -/
theorem mul_eq_zero_iff : a * b = 0 ↔ a = 0 ∨ b = 0 := by
  have hlimit := limit_pos
  rw [eq_zero_iff, eq_zero_iff, eq_zero_iff, amount_mul, ← Nat.mul_eq_zero]
  omega

theorem sum_eq_zero_iff {charges : List Charge} : charges.sum = 0 ↔ ∀ a ∈ charges, a = 0 := by
  induction charges with
  | nil => simp
  | cons a charges ih => rw [List.sum_cons, add_eq_zero_iff, ih, List.forall_mem_cons]

end Charge

/-! ## Distances of zero -/

theorem absDiff_eq_zero_iff {m n : Nat} : absDiff m n = 0 ↔ m = n := by
  unfold absDiff
  omega

theorem alignedDistance_cons_cons (c d : Char) (output target : List Char) :
    alignedDistance (c :: output) (d :: target) =
      Charge.ofNat (absDiff c.toNat d.toNat) + alignedDistance output target := by
  unfold alignedDistance
  rw [List.zipWith_cons_cons, List.sum_cons]

theorem tailDistance_cons_cons (c d : Char) (output target : List Char) :
    tailDistance (c :: output) (d :: target) = tailDistance output target := by
  unfold tailDistance
  simp only [List.length_cons, Nat.add_lt_add_iff_right, Nat.add_sub_add_right, List.drop_succ_cons]

theorem eq_nul_of_toNat_eq_zero {c : Char} (h : c.toNat = 0) : c = '\x00' :=
  Char.toNat_inj.mp h

/-- Nothing else than the character with code point zero, behind the target, is at no distance. -/
theorem eq_append_of_distance_eq_zero {output target : List Char}
    (haligned : alignedDistance output target = 0) (htail : tailDistance output target = 0) :
    ∃ k, output = target ++ List.replicate k '\x00' := by
  induction target generalizing output with
  | nil =>
    refine ⟨output.length, List.eq_replicate_iff.mpr ⟨rfl, ?_⟩⟩
    intro c hc
    -- Without a target, all of the output is extra and counts by its code points.
    have hsum : (output.map fun c => Charge.ofNat c.toNat).sum = 0 := htail
    have hzero := Charge.sum_eq_zero_iff.mp hsum _ (List.mem_map_of_mem hc)
    exact eq_nul_of_toNat_eq_zero (Charge.ofNat_eq_zero_iff.mp hzero)
  | cons d target ih =>
    cases output with
    | nil =>
      -- The target is longer than the output, which costs as much as a cell can hold.
      have hshort : ([] : List Char).length < (d :: target).length := Nat.zero_lt_succ _
      rw [tailDistance, if_pos hshort, Charge.mul_eq_zero_iff, Charge.ofNat_eq_zero_iff,
        Charge.ofNat_eq_zero_iff] at htail
      rcases htail with hmissing | hcell
      · omega
      · exact absurd hcell (by decide)
    | cons c output =>
      -- The two first characters are at no distance, so they are the same, and `ih` is about the
      -- rest.
      rw [alignedDistance_cons_cons, Charge.add_eq_zero_iff, Charge.ofNat_eq_zero_iff,
        absDiff_eq_zero_iff] at haligned
      rw [tailDistance_cons_cons] at htail
      rcases ih haligned.2 htail with ⟨k, hk⟩
      have hchar : c = d := Char.toNat_inj.mp haligned.1
      exact ⟨k, by rw [hchar, hk, List.cons_append]⟩

/-! ## Settings that charge every miss -/

namespace CostOptions

/-- Whether outputs that are not the target are always charged: at a flat rate, or by distance
together with what distance does not see, the character with code point zero. -/
def ChargesMismatches (options : CostOptions) : Prop :=
  0 < options.penalties.notEqual ∨
    (options.policy = .characterDistance ∧ 0 < options.penalties.wrongChar ∧
      options.asciiOnly = true ∧ 0 < options.penalties.nonAscii)

/-- Whether runs out of time are always charged, or make the program invalid. -/
def ChargesTimeouts (options : CostOptions) : Prop :=
  options.timeoutPolicy = .disqualify ∨ 0 < options.penalties.timeout

/-- Whether nothing but a hit is free. -/
def ChargesEveryMiss (options : CostOptions) : Prop :=
  options.ChargesMismatches ∧ options.ChargesTimeouts

instance (options : CostOptions) : Decidable options.ChargesMismatches :=
  inferInstanceAs (Decidable (_ ∨ _))

instance (options : CostOptions) : Decidable options.ChargesTimeouts :=
  inferInstanceAs (Decidable (_ ∨ _))

instance (options : CostOptions) : Decidable options.ChargesEveryMiss :=
  inferInstanceAs (Decidable (_ ∧ _))

end CostOptions

/-! ## Pairs -/

variable {options : CostOptions} {output target : String}

/-- The parts of a charge for a mismatch that costs nothing. -/
theorem pairCharge_eq_zero_of_ne (hne : output ≠ target) :
    pairCharge options output target = 0 ↔
      options.penalties.notEqual = 0 ∧ policyCharge options output target = 0 ∧
        (options.asciiOnly = true → nonAsciiCharge options.penalties output = 0) := by
  unfold pairCharge
  rw [if_neg hne]
  split
  · next hascii => simp [Charge.add_eq_zero_iff, hascii, and_assoc]
  · next hascii => simp [Charge.add_eq_zero_iff, hascii]

/-- The character with code point zero is charged as one that is no letter or digit. -/
theorem nonAsciiCharge_ne_zero (hpenalty : 0 < options.penalties.nonAscii)
    (hmem : '\x00' ∈ output.toList) : nonAsciiCharge options.penalties output ≠ 0 := by
  unfold nonAsciiCharge
  rw [Ne, Charge.mul_eq_zero_iff, Charge.ofNat_eq_zero_iff]
  rintro (hcount | hzero)
  · have hnone := List.countP_eq_zero.mp hcount _ hmem
    exact hnone (by decide)
  · exact Charge.pos_iff.mp hpenalty hzero

/-- Under settings that charge every mismatch, an output is free exactly if it is the target. -/
theorem pairCharge_eq_zero_iff (h : options.ChargesMismatches) :
    pairCharge options output target = 0 ↔ output = target := by
  constructor
  · intro hcharge
    by_cases hne : output = target
    · exact hne
    · rcases (pairCharge_eq_zero_of_ne hne).mp hcharge with ⟨hflat, hpolicy, hascii⟩
      -- Either the flat charge gives the mismatch away, or the distance and the charge for
      -- characters that are no letters or digits do so together.
      rcases h with hpos | ⟨hcharacter, hwrong, hasked, hpenalty⟩
      · exact absurd hflat (Charge.pos_iff.mp hpos)
      · rw [policyCharge, hcharacter] at hpolicy
        rcases Charge.mul_eq_zero_iff.mp hpolicy with hzero | hdistance
        · exact absurd hzero (Charge.pos_iff.mp hwrong)
        · -- The output is the target, with characters behind it that `nonAscii` charges for.
          rcases Charge.add_eq_zero_iff.mp hdistance with ⟨haligned, htail⟩
          rcases eq_append_of_distance_eq_zero haligned htail with ⟨k, hk⟩
          cases k with
          | zero =>
            rw [List.replicate_zero, List.append_nil] at hk
            exact String.toList_inj.mp hk
          | succ k =>
            have hmem : '\x00' ∈ output.toList := by
              rw [hk]
              exact List.mem_append_right _ List.mem_cons_self
            exact absurd (hascii hasked) (nonAsciiCharge_ne_zero hpenalty hmem)
  · intro heq
    exact if_pos heq

/-- A run out of time is charged where the penalty for the timeout is positive, even with an empty
target. -/
theorem timeoutCharge_ne_zero (h : 0 < options.penalties.timeout) :
    timeoutCharge options target ≠ 0 := by
  unfold timeoutCharge
  intro hzero
  exact Charge.pos_iff.mp h (Charge.add_eq_zero_iff.mp hzero).2

end TapeBreeder
