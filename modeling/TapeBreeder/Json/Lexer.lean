import TapeBreeder.Json.Basic

/-!
# Tokens of a JSON text

The text is read one character at a time. A `Lexer` holds the token that is being read, its
`Mode`, and the tokens read so far. Numbers and words are taken as long as they go and checked
when they end; two of them can only touch where the grammar of values has no place for the
second, so nothing is lost by this.

* `Json.tokens?` — the tokens of a text, unless some character fits no token.
* `Json.Number.ofChars?` — the grammar of number literals.
-/

namespace TapeBreeder.Json

/-- The tokens of a JSON text. -/
inductive Token where
  | arrayOpen
  | arrayClose
  | objectOpen
  | objectClose
  | comma
  | colon
  | null
  | bool (value : Bool)
  | number (literal : Number)
  | text (content : Text)

/-! ## Number literals -/

/-- The digit that a character is, if it is one. -/
def digit? (c : Char) : Option (Fin 10) :=
  if '0' ≤ c ∧ c ≤ '9' then some (Fin.ofNat 10 (c.toNat - '0'.toNat)) else none

/-- The number that a list of digits writes. -/
def ofDigits (digits : List (Fin 10)) : Nat :=
  digits.foldl (fun n d => 10 * n + d.val) 0

/-- Split off the digits at the front. -/
def spanDigits : List Char → List (Fin 10) × List Char
  | [] => ([], [])
  | c :: rest =>
    match digit? c with
    | none => ([], c :: rest)
    | some d =>
      let (digits, after) := spanDigits rest
      (d :: digits, after)

/-- An exponent after its letter: an optional sign and at least one digit, and then the end. -/
def exponentOfChars? (cs : List Char) : Option Int :=
  let (negative, cs) := match cs with
    | '-' :: rest => (true, rest)
    | '+' :: rest => (false, rest)
    | _ => (false, cs)
  match spanDigits cs with
  | ([], _) => none
  | (digits, []) =>
    let size : Int := ofDigits digits
    some (if negative then -size else size)
  | _ => none

/-- What follows the digits of a literal: nothing, or an exponent. -/
def exponentPart? : List Char → Option (Option Int)
  | [] => some none
  | c :: rest => if c = 'e' ∨ c = 'E' then (exponentOfChars? rest).map some else none

/-- A number literal: an optional minus, a whole part without leading zeros, an optional point
with at least one digit after it, an optional exponent. -/
def Number.ofChars? (cs : List Char) : Option Number :=
  let (negative, cs) := match cs with
    | '-' :: rest => (true, rest)
    | _ => (false, cs)
  match spanDigits cs with
  | ([], _) => none
  | (0 :: _ :: _, _) => none
  | (whole, '.' :: rest) =>
    match spanDigits rest with
    | ([], _) => none
    | (fraction, after) => (exponentPart? after).map (⟨negative, ofDigits whole, fraction, ·⟩)
  | (whole, after) => (exponentPart? after).map (⟨negative, ofDigits whole, [], ·⟩)

/-- Whether a character may stand in a number literal. -/
def inNumber (c : Char) : Bool :=
  c.isDigit || c == '-' || c == '+' || c == '.' || c == 'e' || c == 'E'

/-! ## Words -/

/-- The token that a word is. -/
def Token.ofWord? (word : List Char) : Option Token :=
  if word = "null".toList then some .null
  else if word = "true".toList then some (.bool true)
  else if word = "false".toList then some (.bool false)
  else none

/-! ## Strings -/

/-- The part of a string that has been read: its characters, the last one first, an escaped
leading surrogate that waits for its partner, and whether some surrogate had none. -/
structure Content where
  chars : List Char
  leading : Option Nat
  broken : Bool

namespace Content

/-- Nothing read yet. -/
def empty : Content :=
  ⟨[], none, false⟩

/-- Read one character that is not an escaped code unit. -/
def push (content : Content) (c : Char) : Content :=
  ⟨c :: content.chars, none, content.broken || content.leading.isSome⟩

/-- Read one escaped UTF-16 code unit. -/
def pushUnit (content : Content) (unit : Nat) : Content :=
  if 0xD800 ≤ unit ∧ unit ≤ 0xDBFF then
    ⟨content.chars, some unit, content.broken || content.leading.isSome⟩
  else if 0xDC00 ≤ unit ∧ unit ≤ 0xDFFF then
    match content.leading with
    | some leading =>
      let point := 0x10000 + (leading - 0xD800) * 0x400 + (unit - 0xDC00)
      ⟨Char.ofNat point :: content.chars, none, content.broken⟩
    | none => ⟨content.chars, none, true⟩
  else
    content.push (Char.ofNat unit)

/-- The string that has been read. -/
def text (content : Content) : Text :=
  if content.broken || content.leading.isSome then none
  else some (String.ofList content.chars.reverse)

end Content

/-- The character that a one-letter escape stands for. -/
def escape? (c : Char) : Option Char :=
  match c with
  | '"' => some '"'
  | '\\' => some '\\'
  | '/' => some '/'
  | 'b' => some '\x08'
  | 'f' => some '\x0c'
  | 'n' => some '\n'
  | 'r' => some '\r'
  | 't' => some '\t'
  | _ => none

/-- The value of a hexadecimal digit, in either case. -/
def hexDigit? (c : Char) : Option Nat :=
  if '0' ≤ c ∧ c ≤ '9' then some (c.toNat - '0'.toNat)
  else if 'a' ≤ c ∧ c ≤ 'f' then some (c.toNat - 'a'.toNat + 10)
  else if 'A' ≤ c ∧ c ≤ 'F' then some (c.toNat - 'A'.toNat + 10)
  else none

/-! ## The lexer -/

/-- What is being read. -/
inductive Mode where
  /-- Nothing: between two tokens. -/
  | between
  /-- A number, its last character first. -/
  | number (chars : List Char)
  /-- A word, its last letter first. -/
  | word (chars : List Char)
  /-- A string. -/
  | text (content : Content)
  /-- A string, right after a backslash. -/
  | escape (content : Content)
  /-- A string, within an escaped code unit of which `count` digits have been read. -/
  | codeUnit (content : Content) (unit count : Nat)

/-- A lexer: what is being read, and the tokens before it, the last one first. -/
structure Lexer where
  mode : Mode
  tokens : List Token

namespace Lexer

/-- Begin with a character that stands between two tokens. -/
def start (tokens : List Token) (c : Char) : Option Lexer :=
  if c = ' ' ∨ c = '\t' ∨ c = '\n' ∨ c = '\r' then some ⟨.between, tokens⟩
  else if c = '[' then some ⟨.between, .arrayOpen :: tokens⟩
  else if c = ']' then some ⟨.between, .arrayClose :: tokens⟩
  else if c = '\x7b' then some ⟨.between, .objectOpen :: tokens⟩
  else if c = '\x7d' then some ⟨.between, .objectClose :: tokens⟩
  else if c = ',' then some ⟨.between, .comma :: tokens⟩
  else if c = ':' then some ⟨.between, .colon :: tokens⟩
  else if c = '"' then some ⟨.text .empty, tokens⟩
  else if c.isDigit ∨ c = '-' then some ⟨.number [c], tokens⟩
  else if c.isLower then some ⟨.word [c], tokens⟩
  else none

/-- End the number or word that is being read. -/
def flush (lexer : Lexer) : Option (List Token) :=
  match lexer.mode with
  | .between => some lexer.tokens
  | .number chars => (Number.ofChars? chars.reverse).map (.number · :: lexer.tokens)
  | .word chars => (Token.ofWord? chars.reverse).map (· :: lexer.tokens)
  | _ => none

/-- Read one character. -/
def feed (lexer : Lexer) (c : Char) : Option Lexer :=
  match lexer.mode with
  | .between => start lexer.tokens c
  | .number chars =>
    if inNumber c then some ⟨.number (c :: chars), lexer.tokens⟩
    else lexer.flush.bind (start · c)
  | .word chars =>
    if c.isLower then some ⟨.word (c :: chars), lexer.tokens⟩
    else lexer.flush.bind (start · c)
  | .text content =>
    if c = '"' then some ⟨.between, .text content.text :: lexer.tokens⟩
    else if c = '\\' then some ⟨.escape content, lexer.tokens⟩
    else if c < ' ' then none
    else some ⟨.text (content.push c), lexer.tokens⟩
  | .escape content =>
    if c = 'u' then some ⟨.codeUnit content 0 0, lexer.tokens⟩
    else (escape? c).map fun c => ⟨.text (content.push c), lexer.tokens⟩
  | .codeUnit content unit count =>
    (hexDigit? c).map fun digit =>
      let unit := 16 * unit + digit
      if count = 3 then ⟨.text (content.pushUnit unit), lexer.tokens⟩
      else ⟨.codeUnit content unit (count + 1), lexer.tokens⟩

end Lexer

/-- The tokens of a JSON text. -/
def tokens? (source : String) : Option (List Token) :=
  (source.toList.foldlM Lexer.feed ⟨.between, []⟩).bind fun lexer =>
    lexer.flush.map List.reverse

end TapeBreeder.Json
