import TapeBreeder.Proofs.Cost.Exact

/-!
# Repairs

An output that is not the target can be brought closer to it in three ways: a character is replaced
by the one that stands at its place in the target, the next character of the target is appended, or
a character too many is dropped from the end. The distance of code points falls by what the repair
is worth, and that is nothing only for a character replaced by itself and for a dropped character
with code point zero.

* `Repair` — the three kinds of repairs.
* `Exact.gap` — the distance in units, which no penalty multiplies and no limit stops.
* `Repair.exists_gap_eq_add` — the gap falls by an amount that depends on what has been changed.
* `repair_lowers_distance` — what this means for the charge, and which outputs are at no distance.
-/

namespace TapeBreeder

/-! ## Repairs -/

/-- A step from an output towards a target. -/
inductive Repair (target : List Char) : List Char → List Char → Prop
  /-- A character is replaced by the one at its place in the target. -/
  | replace {output : List Char} {i : Nat} {old new : Char} (hold : output[i]? = some old)
      (hnew : target[i]? = some new) : Repair target output (output.set i new)
  /-- The next character of the target is appended to an output that is too short. -/
  | append {output : List Char} {next : Char} (hnext : target[output.length]? = some next) :
      Repair target output (output ++ [next])
  /-- The last character of an output that is too long is dropped. -/
  | drop {output : List Char} {last : Char} (hlong : target.length ≤ output.length) :
      Repair target (output ++ [last]) output

/-- Whether a repair changes anything but a character with code point zero at the end. -/
def Repair.Changes (output repaired : List Char) : Prop :=
  repaired ≠ output ∧ output ≠ repaired ++ ['\x00']

/-! ## Gaps -/

namespace Exact

/-- The distance of an output from a target in units of code points. -/
def gap (output target : List Char) : Nat :=
  alignedDistance output target + tailDistance output target

theorem gap_nil_left (target : List Char) : gap [] target = target.length * maxCell := by
  cases target with
  | nil => rfl
  | cons d target => simp [gap, alignedDistance, tailDistance]

theorem gap_nil_right (output : List Char) : gap output [] = (output.map Char.toNat).sum := by
  simp [gap, alignedDistance, tailDistance]

/-- The first characters of both texts are compared with each other. With the two cases above this
is how the gap is computed, place by place. -/
theorem gap_cons_cons (c d : Char) (output target : List Char) :
    gap (c :: output) (d :: target) = absDiff c.toNat d.toNat + gap output target := by
  simp [gap, alignedDistance, tailDistance, Nat.add_assoc]

/-- A character put right is worth its difference to the right one, wherever it stands. -/
theorem gap_replace {output target : List Char} {i : Nat} {old new : Char}
    (hold : output[i]? = some old) (hnew : target[i]? = some new) :
    gap output target = gap (output.set i new) target + absDiff old.toNat new.toNat := by
  induction output generalizing target i with
  | nil => cases hold
  | cons c output ih =>
    cases target with
    | nil => cases hnew
    | cons d target =>
      -- The place to repair is the first one, or it lies further on in both texts.
      cases i with
      | zero =>
        obtain rfl : c = old := Option.some.inj hold
        obtain rfl : d = new := Option.some.inj hnew
        have hsame : absDiff d.toNat d.toNat = 0 := absDiff_eq_zero_iff.mpr rfl
        rw [List.set_cons_zero, gap_cons_cons, gap_cons_cons, hsame, Nat.zero_add, Nat.add_comm]
      | succ i => rw [List.set_cons_succ, gap_cons_cons, gap_cons_cons, ih hold hnew, Nat.add_assoc]

/-- A missing character is as far away as a cell can be. -/
theorem gap_append {output target : List Char} {next : Char}
    (hnext : target[output.length]? = some next) :
    gap output target = gap (output ++ [next]) target + maxCell := by
  induction output generalizing target with
  | nil =>
    -- The output is used up; the appended character meets the next one of the target, which is the
    -- same.
    cases target with
    | nil => cases hnext
    | cons d target =>
      obtain rfl : d = next := Option.some.inj hnext
      have hsame : absDiff d.toNat d.toNat = 0 := absDiff_eq_zero_iff.mpr rfl
      rw [List.nil_append, gap_cons_cons, gap_nil_left, gap_nil_left, hsame, List.length_cons,
        Nat.succ_mul, Nat.zero_add]
  | cons c output ih =>
    cases target with
    | nil => cases hnext
    | cons d target =>
      rw [List.cons_append, gap_cons_cons, gap_cons_cons, ih hnext, Nat.add_assoc]

/-- A character too many is as far away as its code point. -/
theorem gap_drop {output target : List Char} (hlong : target.length ≤ output.length)
    (last : Char) : gap (output ++ [last]) target = gap output target + last.toNat := by
  induction target generalizing output with
  | nil =>
    rw [gap_nil_right, gap_nil_right, List.map_append, List.sum_append]
    rfl
  | cons d target ih =>
    cases output with
    | nil => cases hlong
    | cons c output =>
      rw [List.cons_append, gap_cons_cons, gap_cons_cons, ih (Nat.le_of_succ_le_succ hlong),
        Nat.add_assoc]

/-- Characters with code point zero behind the target are at no distance. -/
theorem gap_append_nul (target : List Char) (k : Nat) :
    gap (target ++ List.replicate k '\x00') target = 0 := by
  induction target with
  | nil =>
    rw [List.nil_append, gap_nil_right, List.map_replicate, List.sum_replicate]
    rfl
  | cons d target ih =>
    rw [List.cons_append, gap_cons_cons, ih, absDiff_eq_zero_iff.mpr rfl]

end Exact

/-! ## What a repair is worth -/

/-- A repair is worth the difference of the two characters, the largest cell or the code point of
the character that is dropped, and so it is worth something if it changes something. -/
theorem Repair.exists_gap_eq_add {target output repaired : List Char}
    (h : Repair target output repaired) :
    ∃ worth, Exact.gap output target = Exact.gap repaired target + worth ∧
      (Repair.Changes output repaired → 0 < worth) := by
  -- What each kind of repair is worth is read off. It is worth nothing only if the characters are
  -- the same or if the one that is dropped has code point zero.
  cases h with
  | @replace _ i old new hold hnew =>
    refine ⟨_, Exact.gap_replace hold hnew, ?_⟩
    rintro ⟨hne, -⟩
    apply Nat.pos_of_ne_zero
    intro hzero
    obtain rfl : old = new := Char.toNat_inj.mp (absDiff_eq_zero_iff.mp hzero)
    rcases List.getElem?_eq_some_iff.mp hold with ⟨hi, rfl⟩
    exact hne (List.set_getElem_self hi)
  | append hnext =>
    refine ⟨_, Exact.gap_append hnext, ?_⟩
    intro _
    decide
  | @drop _ last hlong =>
    refine ⟨_, Exact.gap_drop hlong last, ?_⟩
    rintro ⟨-, hne⟩
    apply Nat.pos_of_ne_zero
    intro hzero
    obtain rfl : last = '\x00' := eq_nul_of_toNat_eq_zero hzero
    exact hne rfl

variable {penalties : PenaltyTable} {output repaired target : String}

/-- The charge in terms of the gap, to which the worth of a repair is added. -/
theorem distanceCharge_eq_gap : distanceCharge penalties output target =
    Charge.ofNat (penalties.wrongChar.amount * Exact.gap output.toList target.toList) :=
  distanceCharge_eq penalties output target

/-- No repair makes an output dearer, whatever the penalty is and even where the charge is
stopped. -/
theorem Repair.distanceCharge_le (h : Repair target.toList output.toList repaired.toList) :
    distanceCharge penalties repaired target ≤ distanceCharge penalties output target := by
  rcases h.exists_gap_eq_add with ⟨worth, hgap, -⟩
  rw [distanceCharge_eq_gap, distanceCharge_eq_gap, hgap]
  exact Charge.ofNat_le_ofNat (Nat.mul_le_mul_left _ (Nat.le_add_right _ _))

/-- A repair that changes something lowers the charge, unless even the lower amount is stopped at
the limit. -/
theorem Repair.distanceCharge_lt_iff (h : Repair target.toList output.toList repaired.toList)
    (hchanges : Repair.Changes output.toList repaired.toList) (hpenalty : 0 < penalties.wrongChar) :
    distanceCharge penalties repaired target < distanceCharge penalties output target ↔
      (distanceCharge penalties repaired target).amount ≠ Charge.limit := by
  rcases h.exists_gap_eq_add with ⟨worth, hgap, hworth⟩
  have hlt : penalties.wrongChar.amount * Exact.gap repaired.toList target.toList <
      penalties.wrongChar.amount * Exact.gap output.toList target.toList := by
    rw [hgap]
    exact Nat.mul_lt_mul_of_pos_left (Nat.lt_add_of_pos_right (hworth hchanges)) hpenalty
  rw [distanceCharge_eq_gap, distanceCharge_eq_gap]
  exact Charge.ofNat_lt_ofNat_iff hlt

/-- An output costs nothing not only if it is the target: characters with code point zero at its end
are free. -/
theorem distanceCharge_eq_zero_iff (hpenalty : 0 < penalties.wrongChar) :
    distanceCharge penalties output target = 0 ↔
      ∃ k, output.toList = target.toList ++ List.replicate k '\x00' := by
  constructor
  · intro hzero
    -- Charges that are stopped are not zero, so nothing is lost by looking at the factors and the
    -- summands.
    rcases Charge.mul_eq_zero_iff.mp hzero with hfree | hdistance
    · exact absurd hfree (Charge.pos_iff.mp hpenalty)
    · rcases Charge.add_eq_zero_iff.mp hdistance with ⟨haligned, htail⟩
      exact eq_append_of_distance_eq_zero haligned htail
  · rintro ⟨k, hk⟩
    rw [distanceCharge_eq_gap, hk, Exact.gap_append_nul, Nat.mul_zero]
    rfl

/-- No repair of an output makes the distance charge larger, whatever the penalties are. Where wrong
characters are charged, a repair makes it smaller unless the repaired output is still charged the
largest number of 64 bits, or nothing but a character with code point zero has been dropped, or a
character been replaced by itself. There, an output is at no distance exactly if it is the target,
followed by any number of characters with code point zero. -/
theorem repair_lowers_distance (penalties : PenaltyTable) (target : String) :
    (∀ output repaired : String, Repair target.toList output.toList repaired.toList →
      distanceCharge penalties repaired target ≤ distanceCharge penalties output target ∧
      (0 < penalties.wrongChar → Repair.Changes output.toList repaired.toList →
        (distanceCharge penalties repaired target < distanceCharge penalties output target ↔
          (distanceCharge penalties repaired target).amount ≠ 2 ^ 64 - 1))) ∧
    (0 < penalties.wrongChar → ∀ output : String,
      distanceCharge penalties output target = 0 ↔
        ∃ k, output.toList = target.toList ++ List.replicate k '\x00') := by
  constructor
  · intro output repaired hrepair
    refine ⟨hrepair.distanceCharge_le, ?_⟩
    intro hpenalty hchanges
    exact hrepair.distanceCharge_lt_iff hchanges hpenalty
  · intro hpenalty output
    exact distanceCharge_eq_zero_iff hpenalty

/-- On the way to `a€` the character `b` is replaced and the missing one appended, and each of the
two lowers the distance. Dropping a character with code point zero does not: it has been at no
distance. -/
theorem repair_lowers_distance_wide :
    0 < ({} : PenaltyTable).wrongChar ∧
      Repair "a€".toList "b".toList "a".toList ∧ Repair.Changes "b".toList "a".toList ∧
      distanceCharge {} "a" "a€" < distanceCharge {} "b" "a€" ∧
      Repair "a€".toList "a".toList "a€".toList ∧ Repair.Changes "a".toList "a€".toList ∧
      distanceCharge {} "a€" "a€" < distanceCharge {} "a" "a€" ∧
      Repair "a€".toList "a€\x00".toList "a€".toList ∧
      distanceCharge {} "a€" "a€" ≤ distanceCharge {} "a€\x00" "a€" ∧
      distanceCharge {} "a€\x00" "a€" = 0 := by
  have hpenalty : 0 < ({} : PenaltyTable).wrongChar := by decide
  have hreplace : Repair "a€".toList "b".toList "a".toList := .replace (i := 0) rfl rfl
  have happend : Repair "a€".toList "a".toList "a€".toList := .append rfl
  have hdrop : Repair "a€".toList "a€\x00".toList "a€".toList :=
    @Repair.drop _ _ '\x00' (Nat.le_refl _)
  have hreplaced : Repair.Changes "b".toList "a".toList := ⟨by decide, by decide⟩
  have happended : Repair.Changes "a".toList "a€".toList := ⟨by decide, by decide⟩
  have hlowers := repair_lowers_distance {} "a€"
  refine ⟨hpenalty, hreplace, hreplaced, ?_, happend, happended, ?_, hdrop,
    (hlowers.1 _ _ hdrop).1, (hlowers.2 hpenalty _).mpr ⟨1, rfl⟩⟩
  · exact ((hlowers.1 _ _ hreplace).2 hpenalty hreplaced).mpr (by decide +kernel)
  · exact ((hlowers.1 _ _ happend).2 hpenalty happended).mpr (by decide +kernel)

end TapeBreeder
