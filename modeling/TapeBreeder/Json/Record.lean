import TapeBreeder.Json.Basic

/-!
# Reading records

A record is written as an object whose keys are the field names, in any order and with other
keys among them, or as an array of the fields in their order. `Json.slots?` brings both to one
form, the slot of each field, and the readers of a `Slot` say what a missing field means.

* `Slot.required` — a missing field is an error.
* `Slot.optional` — a missing key means absence, a missing array element is an error.
* `Slot.default` — a missing field has a default.
-/

namespace TapeBreeder.Json

/-- What a record has for one field. -/
inductive Slot where
  /-- A value. -/
  | given (value : Json)
  /-- The record is an object without the key. -/
  | keyMissing
  /-- The record is an array that ends before the field. -/
  | itemMissing

/-- The entries of an object whose key is `name`. -/
def entriesFor (name : String) (entries : List (Text × Json)) : List (Text × Json) :=
  entries.filter fun entry => entry.1 == some name

/-- The slots of the record with fields `names`. An object may not have a field twice, nor a key
that is no string; an array may not have more items than there are fields. -/
def slots? (names : List String) : Json → Option (String → Slot)
  | object entries =>
    let once (name : String) : Bool := (entriesFor name entries).length ≤ 1
    if entries.all (·.1.isSome) && names.all once then
      some fun name =>
        match entriesFor name entries with
        | [] => .keyMissing
        | entry :: _ => .given entry.2
    else none
  | array items =>
    if items.length ≤ names.length then
      some fun name =>
        match items[names.idxOf name]? with
        | none => .itemMissing
        | some value => .given value
    else none
  | _ => none

namespace Slot

variable {α : Type}

/-- The value of a field that must be there. -/
def required (read : Json → Option α) : Slot → Option α
  | given value => read value
  | _ => none

/-- The value of a field that is absent when it is `null` or has no key. -/
def optional (read : Json → Option α) : Slot → Option (Option α)
  | given .null => some none
  | given value => (read value).map some
  | keyMissing => some none
  | itemMissing => none

/-- The value of a field that has a default. -/
def default (value : α) (read : Json → Option α) : Slot → Option α
  | given value => read value
  | _ => some value

end Slot

/-- Read a value that may be `null`. -/
def nullable {α : Type} (read : Json → Option α) : Json → Option (Option α)
  | null => some none
  | value => (read value).map some

end TapeBreeder.Json
