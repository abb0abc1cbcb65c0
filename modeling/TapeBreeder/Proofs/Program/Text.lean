import TapeBreeder.Proofs.Machine.Faults
import TapeBreeder.Proofs.Brackets.Agreement

/-!
# Programs and their source texts

A program is written with eight characters, and all others are comments. So reading what has been
written gives the program back, writing what has been read leaves the comments out, and a text is
read piece by piece. The position of a symbol is the number of symbols before it, whatever comments
stand between them.

* `alphabet`, `withoutComments` — the eight characters, and a text with no others.
* `Program.parse_render`, `Program.render_parse` — reading and writing, in either order.
* `Program.parse_append` — a text is read piece by piece.
* `Program.exists_split_of_parse` — where a symbol stands in the text it has been read from.
* `text_round_trip` — all of it, with what the positions in error messages count.
-/

namespace TapeBreeder

/-! ## Comments -/

/-- The characters that spell symbols. -/
def alphabet : List Char :=
  ['+', '-', '<', '>', '.', ',', '[', ']']

/-- A text without the characters that spell no symbol. -/
def withoutComments (source : String) : String :=
  String.ofList (source.toList.filter (· ∈ alphabet))

namespace Symbol

theorem toChar_mem_alphabet (s : Symbol) : s.toChar ∈ alphabet := by
  cases s <;> decide

/-- Every other character is a comment, and none of the alphabet is. -/
theorem ofChar?_eq_none_iff {c : Char} : ofChar? c = none ↔ c ∉ alphabet := by
  constructor
  · intro hnone hmem
    -- Each of the eight characters is read as some symbol.
    simp only [alphabet, List.mem_cons, List.not_mem_nil, or_false] at hmem
    rcases hmem with rfl | rfl | rfl | rfl | rfl | rfl | rfl | rfl <;> cases hnone
  · intro hmem
    cases hs : ofChar? c with
    | none => rfl
    | some s =>
      rw [← ofChar?_eq_some_iff.mp hs] at hmem
      exact absurd s.toChar_mem_alphabet hmem

end Symbol

/-! ## Reading and writing -/

theorem filterMap_ofChar?_map_toChar (symbols : List Symbol) :
    (symbols.map Symbol.toChar).filterMap Symbol.ofChar? = symbols := by
  induction symbols with
  | nil => rfl
  | cons s symbols ih => rw [List.map_cons, List.filterMap_cons_some s.ofChar?_toChar, ih]

/-- Characters that are read and spelled out again lose the comments among them. -/
theorem map_toChar_filterMap_ofChar? (chars : List Char) :
    (chars.filterMap Symbol.ofChar?).map Symbol.toChar = chars.filter (· ∈ alphabet) := by
  induction chars with
  | nil => rfl
  | cons c chars ih =>
    cases hs : Symbol.ofChar? c with
    | none =>
      have hcomment : c ∉ alphabet := Symbol.ofChar?_eq_none_iff.mp hs
      rw [List.filterMap_cons_none hs, List.filter_cons_of_neg (by simpa using hcomment), ih]
    | some s =>
      obtain rfl := Symbol.ofChar?_eq_some_iff.mp hs
      have hspells := s.toChar_mem_alphabet
      rw [List.filterMap_cons_some hs, List.map_cons,
        List.filter_cons_of_pos (by simpa using hspells), ih]

namespace Program

/-- No information about a program is lost in writing. -/
theorem parse_render (p : Program) : parse p.render = p := by
  rw [parse, toList_render, filterMap_ofChar?_map_toChar]

/-- Only comments are lost in reading. -/
theorem render_parse (source : String) : (parse source).render = withoutComments source := by
  rw [render, parse, map_toChar_filterMap_ofChar?, withoutComments]

/-- Each character is read by itself, so a text can be cut anywhere. -/
theorem parse_append (source more : String) :
    parse (source ++ more) = parse source ++ parse more := by
  unfold parse
  rw [String.toList_append, List.filterMap_append]
  rfl

/-- The symbols of a program are the characters that are no comments. -/
theorem length_parse (source : String) :
    (parse source).length = (withoutComments source).length := by
  rw [← render_parse, length, render, String.length_ofList, List.length_map]

/-! ## Positions -/

/-- A symbol has been read from the character that spells it, and before that character stand as
many symbols as its position says. -/
theorem exists_split_of_parse {source : String} {k : Nat} {s : Symbol}
    (h : (parse source).symbols[k]? = some s) :
    ∃ before after, source = before ++ String.singleton s.toChar ++ after ∧
      (withoutComments before).length = k := by
  rcases eq_append_of_getElem? h with ⟨xs, ys, hsymbols, rfl⟩
  rcases List.filterMap_eq_append_iff.mp hsymbols with ⟨first, second, hsource, hfirst, hsecond⟩
  rcases List.filterMap_eq_cons_iff.mp hsecond with ⟨comments, c, rest, rfl, hcomments, hc, -⟩
  obtain rfl := Symbol.ofChar?_eq_some_iff.mp hc
  refine ⟨String.ofList (first ++ comments), String.ofList rest, ?_, ?_⟩
  · apply String.toList_injective
    simp [hsource]
  · -- The comments in front of the character add no symbols.
    have hnone : comments.filterMap Symbol.ofChar? = [] :=
      List.filterMap_eq_nil_iff.mpr hcomments
    rw [← length_parse, length, parse, String.toList_ofList, List.filterMap_append, hfirst, hnone,
      List.append_nil]

end Program

/-! ## Faults -/

namespace BracketError

/-- The position that a fault names. -/
def position : BracketError → Nat
  | unmatchedClose position => position
  | unmatchedOpen position => position

/-- The kind of bracket that is at fault. -/
def bracket : BracketError → Symbol
  | unmatchedClose _ => .loopClose
  | unmatchedOpen _ => .loopOpen

end BracketError

/-- The bracket that a fault speaks of stands at the position that it names. -/
theorem Program.getElem?_of_evaluate {clock : Clock} {p : Program} {input : String}
    {milliseconds : UInt64} {fault : BracketError}
    (h : p.evaluate clock input milliseconds = .error (.brackets fault)) :
    p.symbols[fault.position]? = some fault.bracket := by
  rcases evaluate_eq_brackets_cases h with herror | ⟨table, k, -, rfl, hopen, -⟩
  · rcases isFirstUnmatchedClose_of_build herror with ⟨k, rfl, hclose, -⟩
    exact hclose
  · exact hopen

/-- Reading a program that has been written gives the same program, and writing one that has been
read gives its text without the comments, so that reading it again changes nothing. Two texts in a
row are read as two programs in a row. When a program that has been read turns out to be malformed,
the message names a position, and this position is the number of symbols before the bracket in the
text, without the comments. -/
theorem text_round_trip :
    (∀ p : Program, Program.parse p.render = p) ∧
    (∀ source, (Program.parse source).render = withoutComments source ∧
      Program.parse (Program.parse source).render = Program.parse source) ∧
    (∀ source more, Program.parse (source ++ more) = Program.parse source ++ Program.parse more) ∧
    (∀ (clock : Clock) (source input : String) (milliseconds : UInt64) (error : RunError),
      (Program.parse source).evaluate clock input milliseconds = .error error →
      error.isMalformed = true →
      ∃ before after position, position = (withoutComments before).length ∧
        (source = before ++ "]" ++ after ∧
          error.message = s!"Loop close without loop open at {position}" ∨
        source = before ++ "[" ++ after ∧
          error.message = s!"Loop open without loop close reached at {position}")) := by
  refine ⟨Program.parse_render, ?_, Program.parse_append, ?_⟩
  · intro source
    exact ⟨Program.render_parse source, Program.parse_render _⟩
  · intro clock source input milliseconds error herror hmalformed
    cases error with
    | timeout limit => cases hmalformed
    | brackets fault =>
      -- The fault names the position of a bracket among the symbols, which is traced back to the
      -- text.
      have hbracket := Program.getElem?_of_evaluate herror
      rcases Program.exists_split_of_parse hbracket with ⟨before, after, hsource, hposition⟩
      refine ⟨before, after, fault.position, hposition.symm, ?_⟩
      cases fault with
      | unmatchedClose k => exact .inl ⟨hsource, rfl⟩
      | unmatchedOpen k => exact .inr ⟨hsource, rfl⟩

/-- The `]` is the thirteenth character of its text and the second symbol, so that it is at position
1. -/
theorem text_round_trip_comments :
    (Program.parse "add one: +, ] stop").render = "+,]" ∧
      (Program.parse "one: + stop ]").evaluate .steady "" 1 =
        .error (.brackets (.unmatchedClose 1)) ∧
      ∃ before after position, position = (withoutComments before).length ∧
        ("one: + stop ]" = before ++ "]" ++ after ∧
          RunError.message (.brackets (.unmatchedClose 1)) =
            s!"Loop close without loop open at {position}" ∨
        "one: + stop ]" = before ++ "[" ++ after ∧
          RunError.message (.brackets (.unmatchedClose 1)) =
            s!"Loop open without loop close reached at {position}") := by
  have hfault : (Program.parse "one: + stop ]").evaluate .steady "" 1 =
      .error (.brackets (.unmatchedClose 1)) := by
    decide +kernel
  have htext : withoutComments "add one: +, ] stop" = "+,]" := by decide +kernel
  have hrender := (text_round_trip.2.1 "add one: +, ] stop").1
  exact ⟨hrender.trans htext, hfault, text_round_trip.2.2.2 _ _ _ _ _ hfault rfl⟩

end TapeBreeder
