/-!
# JSON values

A JSON value keeps what a reader may still have to decide: numbers are literals rather than
machine numbers, and objects list their entries in the order of the text, duplicates included.

* `Json` — the values, `Json.Number` — number literals, `Json.Text` — strings and keys.
* `Json.Number.natural?` — the literals that denote a natural number by digits alone.
-/

namespace TapeBreeder

namespace Json

/-- The digit zero. -/
def zeroDigit : Fin 10 :=
  ⟨0, by decide⟩

/-- A number literal: sign, whole part, the digits after the point, and the exponent. -/
structure Number where
  negative : Bool
  whole : Nat
  fraction : List (Fin 10)
  exponent : Option Int
deriving DecidableEq, Repr

/-- The literal that writes a natural number by its digits. -/
def Number.ofNat (n : Nat) : Number :=
  ⟨false, n, [], none⟩

/-- The natural number that a literal writes by its digits alone: no sign, no point and no
exponent. -/
def Number.natural? (x : Number) : Option Nat :=
  if x.negative = false ∧ x.fraction = [] ∧ x.exponent = none then some x.whole else none

@[simp] theorem Number.natural?_ofNat (n : Nat) : (Number.ofNat n).natural? = some n := by
  simp [natural?, ofNat]

/-- A string or key of a JSON text. There is no value when an escaped surrogate in it lacks its
partner, since no character stands for it. -/
abbrev Text := Option String

end Json

/-- A JSON value. -/
inductive Json where
  | null
  | bool (value : Bool)
  | number (literal : Json.Number)
  | string (text : Json.Text)
  | array (items : List Json)
  | object (entries : List (Json.Text × Json))

namespace Json

/-! ## Building values -/

/-- A natural number as a JSON value. -/
def nat (n : Nat) : Json :=
  number (.ofNat n)

/-- A string as a JSON value. -/
def str (s : String) : Json :=
  string (some s)

/-- An object with the given fields, in the given order. -/
def record (fields : List (String × Json)) : Json :=
  object (fields.map fun field => (some field.1, field.2))

/-- A value that may be absent; its absence is `null`. -/
def option {α : Type} (encode : α → Json) : Option α → Json
  | none => null
  | some a => encode a

/-! ## Taking values apart -/

/-- The truth value that a JSON value is. -/
def bool? : Json → Option Bool
  | bool value => some value
  | _ => none

/-- The string that a JSON value is. -/
def str? : Json → Option String
  | string text => text
  | _ => none

/-- The items of an array. -/
def items? : Json → Option (List Json)
  | array items => some items
  | _ => none

/-- The natural number below `bound` that a JSON value is. -/
def natBelow? (bound : Nat) : Json → Option Nat
  | number literal => literal.natural?.filter (· < bound)
  | _ => none

/-- The 64-bit natural number that a JSON value is. -/
def uint64? (value : Json) : Option UInt64 :=
  (value.natBelow? UInt64.size).map UInt64.ofNat

/-- The 32-bit natural number that a JSON value is. -/
def uint32? (value : Json) : Option UInt32 :=
  (value.natBelow? UInt32.size).map UInt32.ofNat

/-- The name of an enumerated value: a string, or an object that maps the name, its only key,
to `null`. -/
def variant? : Json → Option String
  | string text => text
  | object [(key, null)] => key
  | _ => none

end Json

end TapeBreeder
