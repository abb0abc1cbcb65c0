import TapeBreeder.Proofs.Cost.Overlap

/-!
# Texts in bytes

A text is stored as the bytes of its characters in UTF-8, one to four for each, and it is these
bytes that are searched for another text. The length of a text is the number of its characters.
Only the first byte of a character can stand first, and no character begins with all the bytes of
another one, so the bytes of one text occur within those of another just where its characters do.

* `exists_append_of_utf8_eq` — a byte that can stand first begins a character wherever it stands.
* `prefix_of_utf8_eq_append` — bytes are read back as characters from the front.
* `utf8_infix_iff` — a search for bytes finds what a search for characters finds.
* `length_le_of_infix_bytes` — a text within another one has no more characters.
-/

namespace TapeBreeder

/-- The bytes of a row of characters. -/
def utf8 (chars : List Char) : List UInt8 :=
  chars.flatMap String.utf8EncodeChar

/-- The bytes that a text is stored in. -/
def bytes (text : String) : List UInt8 :=
  text.toUTF8.data.toList

/-- A text is stored as the bytes of its characters, one after the other. -/
theorem bytes_eq_utf8 (text : String) : bytes text = utf8 text.toList := by
  rw [bytes, String.toUTF8_eq_toByteArray, ← String.utf8Encode_toList, List.utf8Encode,
    List.toList_data_toByteArray, utf8]

theorem utf8_nil : utf8 [] = [] :=
  rfl

theorem utf8_cons (c : Char) (chars : List Char) :
    utf8 (c :: chars) = String.utf8EncodeChar c ++ utf8 chars :=
  List.flatMap_cons

theorem utf8_append (xs ys : List Char) : utf8 (xs ++ ys) = utf8 xs ++ utf8 ys :=
  List.flatMap_append

/-! ## The bytes of a character -/

/-- The first byte of a character can stand first, and none of its later bytes can. -/
theorem utf8EncodeChar_eq_cons (c : Char) :
    ∃ first later, String.utf8EncodeChar c = first :: later ∧ first.IsUTF8FirstByte ∧
      ∀ b ∈ later, ¬ b.IsUTF8FirstByte := by
  have hfirst : ∀ (i : Nat) (hi : i < (String.utf8EncodeChar c).length),
      ((String.utf8EncodeChar c)[i]).IsUTF8FirstByte ↔ i = 0 := by
    intro i hi
    exact UInt8.isUTF8FirstByte_getElem_utf8EncodeChar
  cases hbytes : String.utf8EncodeChar c with
  | nil => exact absurd hbytes String.utf8EncodeChar_ne_nil
  | cons first later =>
    simp only [hbytes] at hfirst
    refine ⟨first, later, rfl, (hfirst 0 (Nat.succ_pos _)).mpr rfl, ?_⟩
    intro b hb hcan
    rcases List.getElem_of_mem hb with ⟨i, hi, rfl⟩
    have hsucc : i + 1 < (first :: later).length := Nat.succ_lt_succ hi
    exact Nat.succ_ne_zero i ((hfirst (i + 1) hsucc).mp hcan)

/-- Whatever follows, the bytes of a character are decoded as that character. -/
theorem eq_of_utf8EncodeChar_append_eq {c d : Char} {xs ys : List UInt8}
    (h : String.utf8EncodeChar c ++ xs = String.utf8EncodeChar d ++ ys) : c = d := by
  have hc := @ByteArray.utf8DecodeChar?_utf8EncodeChar_append xs.toByteArray c
  have hd := @ByteArray.utf8DecodeChar?_utf8EncodeChar_append ys.toByteArray d
  rw [← List.toByteArray_append] at hc hd
  rw [h, hd] at hc
  exact (Option.some.inj hc).symm

/-! ## Texts within texts -/

/-- A text whose bytes begin with those of another one begins with its characters. -/
theorem prefix_of_utf8_eq_append {needle text : List Char} {rest : List UInt8}
    (h : utf8 text = utf8 needle ++ rest) : needle <+: text := by
  induction needle generalizing text with
  | nil => exact List.nil_prefix
  | cons c needle ih =>
    rw [utf8_cons, List.append_assoc] at h
    cases text with
    | nil =>
      -- There are no bytes to begin with those of `c`.
      rcases List.append_eq_nil_iff.mp h.symm with ⟨hnone, -⟩
      exact absurd hnone String.utf8EncodeChar_ne_nil
    | cons d text =>
      rw [utf8_cons] at h
      -- Both rows of bytes begin with those of a character, so it is the same one.
      obtain rfl : d = c := eq_of_utf8EncodeChar_append_eq h
      rw [List.prefix_cons_inj]
      exact ih (List.append_cancel_left h)

/-- Wherever a byte stands that can stand first, a character begins there. The induction is on the
characters, with whatever bytes are in front of the one in question. -/
theorem exists_append_of_utf8_eq {text : List Char} {xs ys : List UInt8} {first : UInt8}
    (h : utf8 text = xs ++ first :: ys) (hfirst : first.IsUTF8FirstByte) :
    ∃ head tail, text = head ++ tail ∧ utf8 tail = first :: ys := by
  induction text generalizing xs with
  | nil =>
    rw [utf8_nil] at h
    exact absurd h.symm (List.append_ne_nil_of_right_ne_nil xs (List.cons_ne_nil first ys))
  | cons c text ih =>
    rcases utf8EncodeChar_eq_cons c with ⟨start, later, hc, -, hlater⟩
    cases xs with
    | nil => exact ⟨[], c :: text, rfl, h⟩
    | cons x xs =>
      rw [utf8_cons, hc, List.cons_append, List.cons_append, List.cons.injEq] at h
      -- None of the later bytes of `c` can stand first, so `first` is behind all of them.
      have hbehind : ∃ zs, utf8 text = zs ++ first :: ys := by
        rcases List.append_eq_append_iff.mp h.2 with ⟨zs, -, htext⟩ | ⟨zs, hsplit, hrest⟩
        · exact ⟨zs, htext⟩
        · cases zs with
          | nil => exact ⟨[], hrest.symm⟩
          | cons z zs =>
            obtain rfl : first = z := (List.cons.inj hrest).1
            have hmem : first ∈ later := by
              rw [hsplit]
              exact List.mem_append_right xs List.mem_cons_self
            exact absurd hfirst (hlater first hmem)
      rcases hbehind with ⟨zs, hzs⟩
      rcases ih hzs with ⟨head, tail, rfl, htail⟩
      exact ⟨c :: head, tail, rfl, htail⟩

/-- The bytes of one row of characters occur within those of another exactly if its characters
do. -/
theorem utf8_infix_iff {needle text : List Char} :
    utf8 needle <:+: utf8 text ↔ needle <:+: text := by
  constructor
  · rintro ⟨xs, ys, h⟩
    -- No characters occur everywhere. Else the first byte of the occurrence can stand first, and
    -- the occurrence is read from there.
    cases needle with
    | nil => exact List.nil_infix
    | cons c needle =>
      rcases utf8EncodeChar_eq_cons c with ⟨first, later, hc, hfirst, -⟩
      have hneedle : utf8 (c :: needle) = first :: (later ++ utf8 needle) := by
        rw [utf8_cons, hc, List.cons_append]
      have htext : utf8 text = xs ++ first :: (later ++ utf8 needle ++ ys) := by
        rw [← h, hneedle, List.append_assoc, List.cons_append]
      rcases exists_append_of_utf8_eq htext hfirst with ⟨head, tail, rfl, htail⟩
      rw [← List.cons_append, ← hneedle] at htail
      exact List.infix_append_of_infix_right (prefix_of_utf8_eq_append htail).isInfix
  · rintro ⟨xs, ys, rfl⟩
    rw [utf8_append, utf8_append]
    exact List.infix_append _ _ _

theorem bytes_infix_iff {needle text : String} :
    bytes needle <:+: bytes text ↔ needle.toList <:+: text.toList := by
  rw [bytes_eq_utf8, bytes_eq_utf8, utf8_infix_iff]

/-- Searched by its bytes or by its characters, a text is found in the same texts. -/
theorem bytes_infix_iff_occursIn {needle text : String} :
    bytes needle <:+: bytes text ↔ occursIn needle.toList text.toList = true := by
  rw [bytes_infix_iff, occursIn_iff_isInfix]

/-- A text that is found within another one has no more characters, however many bytes these
take. -/
theorem length_le_of_infix_bytes {needle text : String} (h : bytes needle <:+: bytes text) :
    needle.length ≤ text.length := by
  rw [← String.length_toList, ← String.length_toList]
  exact (bytes_infix_iff.mp h).length_le

end TapeBreeder
