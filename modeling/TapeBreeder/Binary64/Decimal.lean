import TapeBreeder.Binary64
import TapeBreeder.Json.Lexer

/-!
# Decimal text of doubles

A double is written with the fewest significant digits that read back as the same double; of
several such decimals, the nearest is taken. One decimal is laid out in two ways: in plain
positional notation for messages, and as a number literal, with an exponent when the number is
very large or very small, for JSON texts.

Reading a number literal of a JSON text rounds twice: the leading digits that fit into 64 bits
are rounded to a double, which is then scaled by a power of ten. Reading a text by itself rounds
once.

* `Binary64.shortest` — the digits.
* `Binary64.display`, `Binary64.literal` — the two layouts.
* `Binary64.ofText?`, `Binary64.ofLiteral?` — the two ways of reading.
-/

namespace TapeBreeder

/-! ## Shortest decimals -/

/-- The decimal `digits * 10 ^ exponent`. -/
structure Decimal where
  digits : Nat
  exponent : Int
deriving DecidableEq, Repr

namespace Decimal

/-- The quotient of two natural numbers that a decimal is. -/
def ratio (d : Decimal) : Nat × Nat :=
  if 0 ≤ d.exponent then (d.digits * Nat.pow 10 d.exponent.toNat, 1)
  else (d.digits, Nat.pow 10 (-d.exponent).toNat)

/-- The same decimal without trailing zeros among its digits. -/
def stripZeros (d : Decimal) : Decimal :=
  if h : d.digits ≠ 0 ∧ d.digits % 10 = 0 then
    stripZeros ⟨d.digits / 10, d.exponent + 1⟩
  else d
termination_by d.digits
decreasing_by omega

/-- The digits, the leading one first. -/
def digitChars (d : Decimal) : List Char :=
  Nat.toDigits 10 d.digits

/-- How many digits stand before the point in positional notation; zero or less if the first
digit stands after it. -/
def pointPosition (d : Decimal) : Int :=
  d.digitChars.length + d.exponent

end Decimal

/-- What becomes of a number in the middle of the two nearest decimals. -/
inductive Tie where
  | up
  | even
deriving DecidableEq, Repr

namespace Binary64

/-- Whether a decimal reads back as `units` units. -/
def readsBack (units : Nat) (d : Decimal) : Bool :=
  let (num, den) := d.ratio
  roundUnits (num * one) den == units

/-- The position of the leading digit of `units` units, counted from the point: `10 ^ k` is the
largest power of ten that is not greater. -/
def leadingPosition (units : Nat) : Int :=
  ((Nat.toDigits 10 (units * Nat.pow 10 400 / one)).length : Int) - 401

/-- The decimal of `count` significant digits that is nearest to `units` units, of those that
read back. -/
def nearestOf (tie : Tie) (units count : Nat) : Option Decimal :=
  let exponent := leadingPosition units - (count - 1)
  let num := if exponent < 0 then units * Nat.pow 10 (-exponent).toNat else units
  let den := if exponent < 0 then one else one * Nat.pow 10 exponent.toNat
  let below : Decimal := ⟨num / den, exponent⟩
  let above : Decimal := ⟨num / den + 1, exponent⟩
  let rest := num % den
  let upward : Bool := match tie with
    | .up => den ≤ 2 * rest
    | .even => den < 2 * rest || (den == 2 * rest && below.digits % 2 == 1)
  match readsBack units below, readsBack units above with
  | true, true => some (if upward then above else below)
  | true, false => some below
  | false, true => some above
  | false, false => none

/-- The decimal with the fewest digits that reads back as `units` units. Seventeen digits are
always enough; were they not, the exact expansion would be taken. -/
def shortest (tie : Tie) (units : Nat) : Decimal :=
  if units = 0 then ⟨0, 0⟩
  else
    let found := (List.range 17).findSome? fun count => nearestOf tie units (count + 1)
    (found.getD ⟨units * Nat.pow 5 1074, -1074⟩).stripZeros

/-! ## Positional notation -/

/-- Positional notation of a decimal, with a point only if there are digits after it. -/
def positional (d : Decimal) : String :=
  let digits := d.digitChars
  let point := d.pointPosition
  let chars :=
    if point ≤ 0 then '0' :: '.' :: (List.replicate (-point).toNat '0' ++ digits)
    else if digits.length ≤ point then
      digits ++ List.replicate (point.toNat - digits.length) '0'
    else digits.take point.toNat ++ '.' :: digits.drop point.toNat
  String.ofList chars

/-- A double in positional notation; numbers in the middle of two decimals go up. -/
def display : Binary64 → String
  | nan => "NaN"
  | infinite negative => if negative then "-inf" else "inf"
  | finite negative units => (if negative then "-" else "") ++ positional (shortest .up units)

/-! ## Literals -/

/-- A decimal as a literal: positional with a digit after the point for `1e-5 ≤ x < 1e16` and for
zero, otherwise one digit before the point and an exponent. -/
def literalOfDecimal (negative : Bool) (d : Decimal) : Json.Number :=
  let digits := d.digitChars.filterMap Json.digit?
  let point := d.pointPosition
  if d.digits = 0 then ⟨negative, 0, [Json.zeroDigit], none⟩
  else if point < -4 ∨ 16 < point then
    ⟨negative, Json.ofDigits (digits.take 1), digits.drop 1, some (point - 1)⟩
  else if point ≤ 0 then
    ⟨negative, 0, List.replicate (-point).toNat Json.zeroDigit ++ digits, none⟩
  else if digits.length ≤ point then
    ⟨negative, d.digits * Nat.pow 10 (point.toNat - digits.length), [Json.zeroDigit], none⟩
  else ⟨negative, Json.ofDigits (digits.take point.toNat), digits.drop point.toNat, none⟩

/-- A double as a JSON value; numbers in the middle of two decimals go to the even one. What is
not finite has no literal. -/
def literal : Binary64 → Json
  | finite negative units => .number (literalOfDecimal negative (shortest .even units))
  | _ => .null

/-! ## Reading a text -/

/-- The double nearest to what a number literal denotes. -/
def nearest (x : Json.Number) : Binary64 :=
  let digits := x.fraction.foldl (fun n d => 10 * n + d.val) x.whole
  ofDecimal x.negative digits (x.exponent.getD 0 - x.fraction.length)

/-- The double that a text by itself denotes: `NaN`, an infinity, or the double nearest to a
number literal. -/
def ofText? (text : String) : Option Binary64 :=
  if text = "NaN" then some nan
  else if text = "inf" then some (infinite false)
  else if text = "-inf" then some (infinite true)
  else (Json.Number.ofChars? text.toList).map nearest

/-! ## Reading a literal of a JSON text -/

/-- The digits of a literal that are taken into account, as a natural number below `2 ^ 64` and
a power of ten. Once a digit of the whole part does not fit, the rest of the whole part only
counts as a power of ten; once a digit after the point does not fit, the rest is dropped. -/
structure Significand where
  value : Nat
  exponent : Int
  full : Bool

namespace Significand

/-- Take one more digit, if it fits. -/
def push? (s : Significand) (digit : Nat) : Option Nat :=
  let value := 10 * s.value + digit
  if value < UInt64.size then some value else none

/-- Take a digit of the whole part. -/
def pushWhole (s : Significand) (digit : Fin 10) : Significand :=
  match s.full, s.push? digit with
  | false, some value => { s with value }
  | _, _ => ⟨s.value, s.exponent + 1, true⟩

/-- Take a digit after the point. -/
def pushFraction (s : Significand) (digit : Fin 10) : Significand :=
  match s.full, s.push? digit with
  | false, some value => { s with value, exponent := s.exponent - 1 }
  | _, _ => { s with full := true }

/-- The digits of a literal that are taken into account. -/
def ofLiteral (x : Json.Number) : Significand :=
  let whole := ((Nat.toDigits 10 x.whole).filterMap Json.digit?).foldl pushWhole ⟨0, 0, false⟩
  x.fraction.foldl pushFraction { whole with full := false }

end Significand

/-- The double nearest to a power of ten. -/
def powerOfTen (n : Nat) : Binary64 :=
  ofRatio false (Nat.pow 10 n) 1

/-- A double times a power of ten, by one multiplication or division with a power that is at
most `1e308`, after as many divisions by `1e308` as it takes. There is no result above the
range of doubles. -/
def scale? (x : Binary64) (exponent : Int) : Option Binary64 :=
  if exponent.natAbs ≤ 308 then
    if 0 ≤ exponent then
      let y := x.mul (powerOfTen exponent.natAbs)
      if y.isInfinite then none else some y
    else some (x.div (powerOfTen exponent.natAbs))
  else if x.isZero then some x
  else if 0 ≤ exponent then none
  else scale? (x.div (powerOfTen 308)) (exponent + 308)
termination_by exponent.natAbs
decreasing_by omega

/-- The double that a number literal of a JSON text denotes, unless it is out of range. -/
def ofLiteral? (x : Json.Number) : Option Binary64 :=
  let significand := Significand.ofLiteral x
  (scale? (ofNat significand.value) (significand.exponent + x.exponent.getD 0)).map
    (·.withSign x.negative)

/-- The double that a JSON value is. -/
def ofJson? : Json → Option Binary64
  | .number x => ofLiteral? x
  | _ => none

end Binary64

end TapeBreeder
