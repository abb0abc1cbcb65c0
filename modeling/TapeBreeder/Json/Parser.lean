import TapeBreeder.Json.Lexer

/-!
# Reading a JSON text

The tokens are read one at a time by an automaton with a stack. Its state says what may come
next, and its stack holds the containers that are still open, the innermost first. Every token
is used once, so reading ends with the text.

* `Json.parse?` — the value that a text writes, if the text is one JSON value.
-/

namespace TapeBreeder.Json

/-- A container that waits for its next value, with its earlier values, the last one first. -/
inductive Frame where
  | array (items : List Json)
  | object (entries : List (Text × Json)) (key : Text)

/-- What may come next. -/
inductive Pending where
  /-- A value, or the end of the array if that has just been opened. -/
  | value (fresh : Bool) (stack : List Frame)
  /-- A key of an object, or the end of the object if that has just been opened. -/
  | key (fresh : Bool) (entries : List (Text × Json)) (stack : List Frame)
  /-- The colon after a key. -/
  | colon (entries : List (Text × Json)) (key : Text) (stack : List Frame)
  /-- Whatever may follow a value that is complete. -/
  | after (value : Json) (stack : List Frame)

namespace Pending

/-- Read a token where a value may stand. -/
def beginValue (fresh : Bool) (stack : List Frame) : Token → Option Pending
  | .arrayOpen => some (.value true (.array [] :: stack))
  | .objectOpen => some (.key true [] stack)
  | .null => some (.after .null stack)
  | .bool truth => some (.after (.bool truth) stack)
  | .number literal => some (.after (.number literal) stack)
  | .text content => some (.after (.string content) stack)
  | .arrayClose =>
    match fresh, stack with
    | true, .array items :: stack => some (.after (.array items.reverse) stack)
    | _, _ => none
  | _ => none

/-- Read a token where a key may stand. -/
def beginKey (fresh : Bool) (entries : List (Text × Json)) (stack : List Frame) :
    Token → Option Pending
  | .text content => some (.colon entries content stack)
  | .objectClose => if fresh then some (.after (.object entries.reverse) stack) else none
  | _ => none

/-- Read a token after a value inside a container. -/
def continueWith (last : Json) (stack : List Frame) : Frame → Token → Option Pending
  | .array items, .comma => some (.value false (.array (last :: items) :: stack))
  | .array items, .arrayClose => some (.after (.array (last :: items).reverse) stack)
  | .object entries name, .comma => some (.key false ((name, last) :: entries) stack)
  | .object entries name, .objectClose =>
    some (.after (.object ((name, last) :: entries).reverse) stack)
  | _, _ => none

/-- Read one token. -/
def feed (pending : Pending) (token : Token) : Option Pending :=
  match pending with
  | .value fresh stack => beginValue fresh stack token
  | .key fresh entries stack => beginKey fresh entries stack token
  | .colon entries name stack =>
    match token with
    | .colon => some (.value false (.object entries name :: stack))
    | _ => none
  | .after last (frame :: stack) => continueWith last stack frame token
  | .after _ [] => none

/-- The value that has been read, if nothing is missing. -/
def done? : Pending → Option Json
  | .after last [] => some last
  | _ => none

end Pending

/-- The value that a JSON text writes. -/
def parse? (source : String) : Option Json :=
  (tokens? source).bind fun tokens =>
    (tokens.foldlM Pending.feed (.value false [])).bind Pending.done?

end TapeBreeder.Json
