/-!
# Double precision

Every finite double is a whole number of units of `2 ^ (-1074)`, the smallest positive double,
so a `Binary64` is a sign and a number of units, or an infinity, or not a number. Arithmetic is
exact arithmetic on units, rounded once: to the nearest double, and from the middle of two to
the one with the even significand.

* `Binary64.ofRatio` — the double nearest to a quotient.
* `Binary64.mul`, `Binary64.div`, `Binary64.lt`, `Binary64.le` — arithmetic and order.
* `Binary64.truncate` — the whole part, clamped to 64-bit natural numbers.
-/

namespace TapeBreeder

/-- A double precision number. -/
inductive Binary64 where
  | nan
  | infinite (negative : Bool)
  /-- So many units of `2 ^ (-1074)`; zero has a sign too. -/
  | finite (negative : Bool) (units : Nat)
deriving DecidableEq, Repr

namespace Binary64

/-! ## Rounding -/

/-- The number of units in one. -/
def one : Nat :=
  Nat.pow 2 1074

/-- The units of the first power of two that is too large for a double. -/
def overflow : Nat :=
  Nat.pow 2 2098

/-- The natural number nearest to a quotient; from the middle of two, the even one. -/
def divNearest (num den : Nat) : Nat :=
  let quotient := num / den
  let rest := num % den
  if 2 * rest < den then quotient
  else if den < 2 * rest then quotient + 1
  else quotient + quotient % 2

/-- The units of the double nearest to `num / den` units, if the exponent were not bounded
above: a multiple of the power of two that leaves 53 significant bits. -/
def roundUnits (num den : Nat) : Nat :=
  let step := Nat.pow 2 ((num / den).log2 - 52)
  divNearest num (den * step) * step

/-- A double of so many units, or an infinity if there are too many. -/
def ofUnits (negative : Bool) (units : Nat) : Binary64 :=
  if overflow ≤ units then infinite negative else finite negative units

/-- The double nearest to `num / den`, with a sign. -/
def ofRatio (negative : Bool) (num den : Nat) : Binary64 :=
  ofUnits negative (roundUnits (num * one) den)

/-- The double nearest to a natural number. -/
def ofNat (n : Nat) : Binary64 :=
  ofRatio false n 1

/-- The double nearest to `digits * 10 ^ exponent`, with a sign. The cases split off are those
that are plainly out of range. -/
def ofDecimal (negative : Bool) (digits : Nat) (exponent : Int) : Binary64 :=
  if digits = 0 then finite negative 0
  else if 400 < exponent then infinite negative
  else if exponent + digits.log2 < -400 then finite negative 0
  else if 0 ≤ exponent then ofRatio negative (digits * Nat.pow 10 exponent.toNat) 1
  else ofRatio negative digits (Nat.pow 10 (-exponent).toNat)

/-- The double `k / 2 ^ 53`, which is exact for `k < 2 ^ 53`. -/
def ofFraction (k : Nat) : Binary64 :=
  ofRatio false k (Nat.pow 2 53)

/-! ## Sign and classification -/

/-- Whether the number is infinite. -/
def isInfinite : Binary64 → Bool
  | infinite _ => true
  | _ => false

/-- Whether the number is a zero of either sign. -/
def isZero : Binary64 → Bool
  | finite _ units => units == 0
  | _ => false

/-- The number with a sign taken from outside. -/
def withSign (negative : Bool) : Binary64 → Binary64
  | nan => nan
  | infinite _ => infinite negative
  | finite _ units => finite negative units

/-! ## Order -/

/-- The value of a finite number in units, as an integer. -/
def signed (negative : Bool) (units : Nat) : Int :=
  if negative then -(units : Int) else units

/-- Whether one number is less than another; nothing is less than `nan` or greater. -/
def lt : Binary64 → Binary64 → Bool
  | nan, _ | _, nan => false
  | infinite m, infinite n => m && !n
  | infinite m, finite .. => m
  | finite .., infinite n => !n
  | finite m a, finite n b => signed m a < signed n b

/-- Whether one number is at most another; `nan` is not comparable. -/
def le : Binary64 → Binary64 → Bool
  | nan, _ | _, nan => false
  | infinite m, infinite n => m || !n
  | infinite m, finite .. => m
  | finite .., infinite n => !n
  | finite m a, finite n b => signed m a ≤ signed n b

instance : LT Binary64 :=
  ⟨fun x y => x.lt y = true⟩

instance : LE Binary64 :=
  ⟨fun x y => x.le y = true⟩

instance (x y : Binary64) : Decidable (x < y) :=
  inferInstanceAs (Decidable (x.lt y = true))

instance (x y : Binary64) : Decidable (x ≤ y) :=
  inferInstanceAs (Decidable (x.le y = true))

/-! ## Arithmetic -/

/-- The product, rounded. -/
def mul : Binary64 → Binary64 → Binary64
  | nan, _ | _, nan => nan
  | infinite m, infinite n => infinite (m != n)
  | infinite m, finite n b => if b = 0 then nan else infinite (m != n)
  | finite m a, infinite n => if a = 0 then nan else infinite (m != n)
  | finite m a, finite n b => ofUnits (m != n) (roundUnits (a * b) one)

/-- The quotient, rounded. -/
def div : Binary64 → Binary64 → Binary64
  | nan, _ | _, nan => nan
  | infinite _, infinite _ => nan
  | infinite m, finite n _ => infinite (m != n)
  | finite m _, infinite n => finite (m != n) 0
  | finite m a, finite n b =>
    if b = 0 then if a = 0 then nan else infinite (m != n)
    else ofUnits (m != n) (roundUnits (a * one) b)

/-- The whole part, clamped to the natural numbers below `2 ^ 64`; `nan` counts as zero. -/
def truncate : Binary64 → Nat
  | nan => 0
  | infinite true => 0
  | infinite false => UInt64.size - 1
  | finite true _ => 0
  | finite false units => min (units / one) (UInt64.size - 1)

end Binary64

end TapeBreeder
