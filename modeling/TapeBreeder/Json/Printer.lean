import TapeBreeder.Json.Basic

/-!
# Writing a JSON text

The compact form: no blanks, strings with the fewest escapes, exponents with their sign.

* `Json.render` — the text of a value.
-/

namespace TapeBreeder.Json

/-! ## Numbers -/

/-- The text of a number literal. -/
def Number.render (x : Number) : String :=
  let sign := if x.negative then "-" else ""
  let fraction :=
    if x.fraction = [] then ""
    else "." ++ String.join (x.fraction.map fun d => toString d.val)
  let exponent := match x.exponent with
    | none => ""
    | some e => (if e < 0 then "e-" else "e+") ++ toString e.natAbs
  sign ++ toString x.whole ++ fraction ++ exponent

/-! ## Strings -/

/-- The hexadecimal digit of a number below sixteen, in lower case. -/
def hexDigit (n : Nat) : Char :=
  Char.ofNat (if n < 10 then '0'.toNat + n else 'a'.toNat + (n - 10))

/-- How a character is written within a string. -/
def writeChar (c : Char) : String :=
  if c = '"' then "\\\""
  else if c = '\\' then "\\\\"
  else if c = '\x08' then "\\b"
  else if c = '\x0c' then "\\f"
  else if c = '\n' then "\\n"
  else if c = '\r' then "\\r"
  else if c = '\t' then "\\t"
  else if c < ' ' then
    "\\u00" ++ String.ofList [hexDigit (c.toNat / 16), hexDigit (c.toNat % 16)]
  else String.singleton c

/-- A string in quotes. -/
def quote (s : String) : String :=
  s.toList.foldl (fun text c => text ++ writeChar c) "\"" ++ "\""

/-- The text of a string or key; one that no string stands for is written as the replacement
character. -/
def Text.render (text : Text) : String :=
  quote (text.getD "\ufffd")

/-! ## Values -/

mutual

/-- The text of a value. -/
def render : Json → String
  | null => "null"
  | bool true => "true"
  | bool false => "false"
  | number literal => literal.render
  | string text => Text.render text
  | array items => "[" ++ renderItems items ++ "]"
  | object entries => "\x7b" ++ renderEntries entries ++ "\x7d"

/-- The items of an array, with commas between them. -/
def renderItems : List Json → String
  | [] => ""
  | [value] => value.render
  | value :: rest => value.render ++ "," ++ renderItems rest

/-- The entries of an object, with commas between them. -/
def renderEntries : List (Text × Json) → String
  | [] => ""
  | [(key, value)] => Text.render key ++ ":" ++ value.render
  | (key, value) :: rest => Text.render key ++ ":" ++ value.render ++ "," ++ renderEntries rest

end

end TapeBreeder.Json
