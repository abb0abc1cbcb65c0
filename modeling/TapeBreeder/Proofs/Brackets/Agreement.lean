import TapeBreeder.Proofs.Brackets.Jumps

/-!
# The readings of the brackets agree

The brackets of a program are read in three ways: by counting depth, by scanning from one bracket,
and by one pass with a stack. Interpreting a program relies on the pass and mutating it on the
scans, so it matters that all of them see the same brackets, also where there are too many of one
kind.

* `partner?_eq_some_iff` — the scans find the other end of a pair, and every pair is found.
* `JumpTable.jump?_eq_partner?` — the pass links what the scans find, and nothing else.
* `JumpTable.build_eq_error_iff_balanced` — the pass gets stuck at the `]` behind a balanced row.
* `bracket_readings_agree` — all of it, with the grammar of balanced programs.
-/

namespace TapeBreeder

open Program (depthAfter? returnOffset?)

/-! ## Scans and pairs -/

/-- A scan passes over a balanced row. -/
theorem returnOffset?_balanced_append {ys : List Symbol} (h : Balanced ys) (k : Nat)
    (rest : List Symbol) :
    returnOffset? .loopOpen .loopClose (k + 1) (ys ++ rest) =
      (returnOffset? .loopOpen .loopClose (k + 1) rest).map (· + ys.length) := by
  induction h generalizing k rest with
  | nil => simp
  | @plain s ys hs _ ih =>
    rw [List.cons_append, returnOffset?_plain hs, ih, Option.map_map]
    rfl
  | @loop body ys _ _ ihbody ihys =>
    rw [List.cons_append, List.append_assoc, List.cons_append, returnOffset?_open, ihbody,
      returnOffset?_close_succ, ihys, Option.map_map, Option.map_map, Option.map_map]
    -- What is left is the sum of the offsets on the way.
    congr 1
    funext n
    simp only [Function.comp_apply, List.length_cons, List.length_append]
    omega

/-- From a `[`, the scan comes to the `]` behind a balanced row. -/
theorem returnOffset?_of_balanced {ys : List Symbol} (h : Balanced ys) (zs : List Symbol) :
    returnOffset? .loopOpen .loopClose 0 (.loopOpen :: (ys ++ .loopClose :: zs)) =
      some (ys.length + 1) := by
  rw [returnOffset?_open, returnOffset?_balanced_append h, returnOffset?_close_one,
    Option.map_some, Option.map_some, Nat.zero_add]

namespace IsPair

variable {p : Program} {first second : Nat}

/-- From the `[` of a pair, the scan finds its `]`. -/
theorem partner?_first (h : IsPair p.symbols first second) : p.partner? first = some second := by
  have hopen := h.getElem?_first
  rcases h with ⟨xs, ys, zs, hsymbols, hys, rfl, rfl⟩
  unfold Program.partner?
  rw [hopen]
  dsimp only
  rw [hsymbols, List.drop_left, returnOffset?_of_balanced hys, Option.map_some, Nat.add_assoc]

/-- From the `]` of a pair, the scan finds its `[`. -/
theorem partner?_second (h : IsPair p.symbols first second) :
    p.partner? second = some first := by
  have hclose := h.getElem?_second
  rcases h with ⟨xs, ys, zs, hsymbols, hys, rfl, rfl⟩
  have hlength : xs.length + ys.length + 1 + 1 =
      (xs ++ Symbol.loopOpen :: (ys ++ [Symbol.loopClose])).length := by
    simp only [List.length_append, List.length_cons, List.length_nil]
    omega
  have hsplit : xs ++ .loopOpen :: (ys ++ .loopClose :: zs) =
      (xs ++ .loopOpen :: (ys ++ [.loopClose])) ++ zs := by
    simp only [List.append_assoc, List.cons_append, List.nil_append]
  -- Read backwards and in a mirror, the row is one that the forward scan passes over.
  have hmirror : (xs ++ Symbol.loopOpen :: (ys ++ [Symbol.loopClose])).reverse.map Symbol.flip =
      .loopOpen ::
        ((ys.map Symbol.flip).reverse ++ .loopClose :: (xs.map Symbol.flip).reverse) := by
    simp [Symbol.flip]
  have hlengths : (ys.map Symbol.flip).reverse.length = ys.length := by
    rw [List.length_reverse, List.length_map]
  unfold Program.partner?
  rw [hclose]
  dsimp only
  rw [hsymbols, hlength, hsplit, List.take_left, returnOffset?_flip, hmirror,
    returnOffset?_of_balanced hys.mirror, hlengths, Option.map_some, Nat.add_assoc,
    Nat.add_sub_cancel_right]

/-- What stands behind a row does not part its pairs. -/
theorem append {xs : List Symbol} (h : IsPair xs first second) (ws : List Symbol) :
    IsPair (xs ++ ws) first second := by
  rcases h with ⟨as, bs, cs, rfl, hbs, hfirst, hsecond⟩
  refine ⟨as, bs, cs ++ ws, ?_, hbs, hfirst, hsecond⟩
  simp only [List.append_assoc, List.cons_append]

end IsPair

/-- Two positions are partners exactly if they are the ends of a pair, in either order. -/
theorem partner?_eq_some_iff {p : Program} {i j : Nat} :
    p.partner? i = some j ↔ IsPair p.symbols i j ∨ IsPair p.symbols j i := by
  constructor
  · exact isPair_of_partner?
  · rintro (hpair | hpair)
    · exact hpair.partner?_first
    · exact hpair.partner?_second

/-! ## Positions without target -/

namespace JumpTable

/-- Filling sets targets and adds none. -/
theorem size_of_fill {xs : List Symbol} {position : Nat} {opened : List Nat}
    {targets targets' : Array (Option Nat)} (h : fill xs position opened targets = .ok targets') :
    targets'.size = targets.size := by
  induction xs generalizing position opened targets with
  | nil =>
    cases h
    rfl
  | cons s xs ih =>
    rcases Program.symbol_cases s with rfl | rfl | hs
    · exact ih h
    · cases opened with
      | nil => cases h
      | cons start opened =>
        have hsize := ih h
        rwa [Array.size_setIfInBounds, Array.size_setIfInBounds] at hsize
    · rw [fill_plain hs] at h
      exact ih h

/-- A symbol that is no bracket is not linked, and neither is a `[` that is never closed. -/
theorem fill_unlinked {xs zs : List Symbol} {s : Symbol}
    (hs : s.isBracket = false ∨ s = .loopOpen ∧ (leftover zs).closes = 0) {position : Nat}
    {opened : List Nat} {targets targets' : Array (Option Nat)}
    (h : fill (xs ++ s :: zs) position opened targets = .ok targets')
    (hopened : ∀ start ∈ opened, start < position) :
    targets'[position + xs.length]? = targets[position + xs.length]? := by
  induction xs generalizing position opened targets with
  | nil =>
    rw [List.length_nil, Nat.add_zero]
    rcases hs with hplain | ⟨rfl, hcloses⟩
    · have hfresh : position ∉ opened := by
        intro hmem
        exact Nat.lt_irrefl position (hopened position hmem)
      rw [List.nil_append, fill_plain hplain] at h
      exact fill_frame h (Nat.lt_succ_self position) fun hmem => hfresh (List.mem_of_mem_take hmem)
    · -- The `[` goes onto the stack, from which it is never taken again.
      have hrest : fill zs (position + 1) (position :: opened) targets = .ok targets' := h
      have hkept : position ∉ (position :: opened).take (leftover zs).closes := by
        rw [hcloses, List.take_zero]
        exact List.not_mem_nil
      exact fill_frame hrest (Nat.lt_succ_self position) hkept
  | cons t xs ih =>
    have hposition : position + (t :: xs).length = position + 1 + xs.length := by
      rw [List.length_cons]
      omega
    -- The first symbol moves the position by one, and what is open behind it began no later than
    -- that.
    have hlater : ∀ start ∈ opened, start < position + 1 := by
      intro start hstart
      exact Nat.lt_succ_of_lt (hopened start hstart)
    rw [hposition]
    rcases Program.symbol_cases t with rfl | rfl | ht
    · apply ih h
      intro start hstart
      rcases List.mem_cons.mp hstart with rfl | hstart
      · exact Nat.lt_succ_self _
      · exact hlater start hstart
    · cases opened with
      | nil => cases h
      | cons start opened =>
        -- The two targets that are set lie before the position that `ih` is about.
        have hrest := ih h fun other hother => hlater other (List.mem_cons_of_mem _ hother)
        have hstart : start < position := hopened start List.mem_cons_self
        rw [hrest, Array.getElem?_setIfInBounds_ne (by omega),
          Array.getElem?_setIfInBounds_ne (by omega)]
    · rw [List.cons_append, fill_plain ht] at h
      exact ih h hlater

variable {p : Program} {table : JumpTable}

/-- In the table of a program, there is no target for a symbol that is no bracket, nor for a `[`
that is never closed. -/
theorem jump?_of_unlinked {xs zs : List Symbol} {s : Symbol}
    (h : build (xs ++ s :: zs) = .ok table)
    (hs : s.isBracket = false ∨ s = .loopOpen ∧ (leftover zs).closes = 0) :
    table.jump? xs.length = none := by
  have htarget := fill_unlinked hs (fill_of_build h) (by simp)
  rw [Nat.zero_add] at htarget
  have hlt : xs.length < (xs ++ s :: zs).length := by
    rw [List.length_append, List.length_cons]
    omega
  rw [jump?, htarget, Array.getElem?_replicate, if_pos hlt]
  rfl

/-- Behind the end of a program there are no targets. -/
theorem jump?_of_length_le (h : build p.symbols = .ok table) {i : Nat}
    (hi : p.symbols.length ≤ i) : table.jump? i = none := by
  have hsize := size_of_fill (fill_of_build h)
  rw [Array.size_replicate] at hsize
  rw [jump?, Array.getElem?_eq_none (hsize ▸ hi)]
  rfl

/-- What no scan finds is not linked either. -/
theorem jump?_eq_none_of_partner? (h : build p.symbols = .ok table) {i : Nat}
    (hnone : p.partner? i = none) : table.jump? i = none := by
  cases hsymbol : p.symbols[i]? with
  | none => exact jump?_of_length_le h (List.getElem?_eq_none_iff.mp hsymbol)
  | some s =>
    rcases p with ⟨symbols⟩
    rcases eq_append_of_getElem? hsymbol with ⟨xs, zs, rfl, rfl⟩
    rcases Program.symbol_cases s with rfl | rfl | hs
    · have hcloses := closes_eq_zero_of_partner?_eq_none hnone
      exact jump?_of_unlinked h (.inr ⟨rfl, hcloses⟩)
    · -- Once the table has been built, every `]` is the end of a pair.
      rcases exists_isPair_of_close (isSome_depthAfter?_of_build h) hsymbol with ⟨j, hpair⟩
      have hpartner := hpair.partner?_second
      rw [hnone] at hpartner
      cases hpartner
    · exact jump?_of_unlinked h (.inl hs)

/-- A table that can be built has the partners that the scans find. -/
theorem jump?_eq_partner? (h : build p.symbols = .ok table) (i : Nat) :
    table.jump? i = p.partner? i := by
  cases hpartner : p.partner? i with
  | none => exact jump?_eq_none_of_partner? h hpartner
  | some j =>
    rcases partner?_eq_some_iff.mp hpartner with hpair | hpair
    · exact (jump?_of_isPair h hpair).1
    · exact (jump?_of_isPair h hpair).2

end JumpTable

/-! ## The first `]` without partner -/

namespace JumpTable

/-- Behind a balanced row no loop is open, so a `]` that follows it cannot be linked. -/
theorem build_of_balanced_append {xs : List Symbol} (h : Balanced xs) (zs : List Symbol) :
    build (xs ++ .loopClose :: zs) = .error (.unmatchedClose xs.length) := by
  rcases fill_balanced_append h 0 []
    (Array.replicate (xs ++ .loopClose :: zs).length none) with ⟨targets, -, hfill⟩
  rw [build, hfill, Nat.zero_add]
  rfl

/-- Building fails at the `]` that follows a balanced row, and at no other. -/
theorem build_eq_error_iff_balanced {symbols : List Symbol} {fault : BracketError} :
    build symbols = .error fault ↔ ∃ xs zs, symbols = xs ++ .loopClose :: zs ∧ Balanced xs ∧
      fault = .unmatchedClose xs.length := by
  constructor
  · intro h
    -- The table cannot be built, so the depth falls below zero somewhere.
    have hstuck : (Program.mk symbols).isLoadable = false := by
      rw [Program.isLoadable, h]
      rfl
    have hnone : depthAfter? 0 symbols = none := by
      rw [← Option.not_isSome_iff_eq_none, ← Program.isLoadable_iff (p := ⟨symbols⟩), hstuck]
      decide
    rcases Program.exists_close_of_depthAfter?_eq_none hnone with ⟨xs, zs, rfl, hdepth⟩
    have hxs : Balanced xs := balanced_of_depthAfter? hdepth
    rw [build_of_balanced_append hxs] at h
    exact ⟨xs, zs, rfl, hxs, (Except.error.inj h).symm⟩
  · rintro ⟨xs, zs, rfl, hxs, rfl⟩
    exact build_of_balanced_append hxs zs

end JumpTable

namespace Program

variable {p : Program} {k : Nat}

/-- Whether a position is that of the first `]` for which no scan finds a partner. -/
def IsFirstUnmatchedClose (p : Program) (k : Nat) : Prop :=
  p.symbols[k]? = some .loopClose ∧ p.partner? k = none ∧
    ∀ i < k, p.symbols[i]? = some .loopClose → p.partner? i ≠ none

instance (p : Program) (k : Nat) : Decidable (p.IsFirstUnmatchedClose k) :=
  inferInstanceAs (Decidable (_ ∧ _ ∧ _))

theorem IsFirstUnmatchedClose.unique {j : Nat} (hj : p.IsFirstUnmatchedClose j)
    (hk : p.IsFirstUnmatchedClose k) : j = k := by
  rcases Nat.lt_trichotomy j k with hlt | heq | hlt
  · exact absurd hj.2.1 (hk.2.2 j hlt hj.1)
  · exact heq
  · exact absurd hk.2.1 (hj.2.2 k hlt hk.1)

/-- Backwards from a `]` behind a balanced row, the scan runs out of symbols. -/
theorem partner?_close_of_balanced {xs : List Symbol} (h : Balanced xs) (zs : List Symbol) :
    (Program.mk (xs ++ .loopClose :: zs)).partner? xs.length = none := by
  have hscan : returnOffset? .loopOpen .loopClose 1 (xs.map Symbol.flip).reverse = none := by
    -- The scan passes over the mirrored row, with nothing behind it.
    have hpassed := returnOffset?_balanced_append h.mirror 0 []
    rw [List.append_nil] at hpassed
    rw [hpassed]
    rfl
  unfold partner?
  rw [List.getElem?_append_right (Nat.le_refl _), Nat.sub_self, List.getElem?_cons_zero,
    List.take_length_add_append, List.take_one, List.head?_cons]
  simp only [Option.toList_some, List.reverse_append, List.reverse_singleton,
    List.singleton_append, returnOffset?_flip, List.map_cons, List.map_reverse, Symbol.flip]
  rw [returnOffset?_open, hscan]
  rfl

/-- The first `]` without partner is the one behind a balanced row. -/
theorem isFirstUnmatchedClose_of_balanced {xs : List Symbol} (h : Balanced xs)
    (zs : List Symbol) : (Program.mk (xs ++ .loopClose :: zs)).IsFirstUnmatchedClose xs.length := by
  refine ⟨?_, partner?_close_of_balanced h zs, ?_⟩
  · rw [List.getElem?_append_right (Nat.le_refl _), Nat.sub_self, List.getElem?_cons_zero]
  · intro i hi hclose
    rw [List.getElem?_append_left hi] at hclose
    -- An earlier `]` stands in the balanced row, and has its partner there.
    have hsome : (depthAfter? 0 xs).isSome := by
      rw [h.depthAfter? 0]
      rfl
    rcases exists_isPair_of_close hsome hclose with ⟨j, hpair⟩
    have hpartner : (Program.mk (xs ++ .loopClose :: zs)).partner? i = some j :=
      (hpair.append (.loopClose :: zs)).partner?_second
    rw [hpartner]
    exact Option.some_ne_none j

/-- If a table cannot be built, it is because of the first `]` without partner. -/
theorem isFirstUnmatchedClose_of_build {fault : BracketError}
    (h : JumpTable.build p.symbols = .error fault) :
    ∃ k, fault = .unmatchedClose k ∧ p.IsFirstUnmatchedClose k := by
  rcases JumpTable.build_eq_error_iff_balanced.mp h with ⟨xs, zs, hsymbols, hxs, hfault⟩
  rcases p with ⟨symbols⟩
  obtain rfl : symbols = xs ++ .loopClose :: zs := hsymbols
  exact ⟨xs.length, hfault, isFirstUnmatchedClose_of_balanced hxs zs⟩

/-- The table fails with a position exactly if that is where the first `]` without partner
stands. -/
theorem build_eq_unmatchedClose_iff :
    JumpTable.build p.symbols = .error (.unmatchedClose k) ↔ p.IsFirstUnmatchedClose k := by
  constructor
  · intro h
    rcases isFirstUnmatchedClose_of_build h with ⟨j, hfault, hj⟩
    obtain rfl := BracketError.unmatchedClose.inj hfault
    exact hj
  · intro hk
    cases hbuild : JumpTable.build p.symbols with
    | ok table =>
      -- Once the table has been built, no `]` is without partner.
      rcases exists_isPair_of_close (JumpTable.isSome_depthAfter?_of_build hbuild) hk.1 with
        ⟨j, hpair⟩
      have hpartner := hpair.partner?_second
      rw [hk.2.1] at hpartner
      cases hpartner
    | error fault =>
      rcases isFirstUnmatchedClose_of_build hbuild with ⟨j, rfl, hj⟩
      rw [hj.unique hk]

/-! ## Balanced programs -/

/-- A program is balanced if its table can be built and leaves no `[` without target. -/
theorem balanced_iff_targets : Balanced p.symbols ↔
    ∃ table, JumpTable.build p.symbols = .ok table ∧
      ∀ i, p.symbols[i]? = some .loopOpen → table.jump? i ≠ none := by
  constructor
  · intro h
    rcases isLoadable_iff_exists_build.mp (isLoadable_of_balanced h) with ⟨table, hbuild⟩
    refine ⟨table, hbuild, ?_⟩
    intro i hopen
    rw [JumpTable.jump?_eq_partner? hbuild]
    exact partner?_ne_none_of_balanced h hopen
  · rintro ⟨table, hbuild, htargets⟩
    have hloadable : p.isLoadable := isLoadable_iff_exists_build.mpr ⟨table, hbuild⟩
    have hcloses : (leftover p.symbols).closes = 0 := isLoadable_iff_closes.mp hloadable
    -- A `[` that is left over would have no target.
    have hopens : (leftover p.symbols).opens = 0 := by
      by_contra hne
      rcases exists_open_of_opens hne with ⟨ys, zs, hsymbols, hzs⟩
      have hopen : p.symbols[ys.length]? = some .loopOpen := by
        rw [hsymbols, List.getElem?_append_right (Nat.le_refl _), Nat.sub_self,
          List.getElem?_cons_zero]
      rw [hsymbols] at hbuild
      exact htargets ys.length hopen (JumpTable.jump?_of_unlinked hbuild (.inr ⟨rfl, hzs⟩))
    apply balanced_iff_leftover_eq.mpr
    ext
    · exact hcloses
    · exact hopens

end Program

/-- The readings of the brackets of any program agree, whatever brackets it has too many of. Its
jump table fails to be built exactly because of the first `]` for which no scan finds a partner. If
it can be built, it has the partner that a scan finds for each position, also behind the end. It is
balanced by the count of its depth exactly if the table can be built and leaves no `[` without
target, and exactly if the grammar derives it. -/
theorem bracket_readings_agree (p : Program) :
    (∀ fault, JumpTable.build p.symbols = .error fault ↔
      ∃ k, fault = .unmatchedClose k ∧ p.IsFirstUnmatchedClose k) ∧
    (∀ table, JumpTable.build p.symbols = .ok table → ∀ i, table.jump? i = p.partner? i) ∧
    (p.isBalanced = true ↔ ∃ table, JumpTable.build p.symbols = .ok table ∧
      ∀ i, p.symbols[i]? = some .loopOpen → table.jump? i ≠ none) ∧
    (p.isBalanced = true ↔ Balanced p.symbols) := by
  refine ⟨?_, ?_, ?_, Program.isBalanced_iff⟩
  · intro fault
    constructor
    · exact Program.isFirstUnmatchedClose_of_build
    · rintro ⟨k, rfl, hk⟩
      exact Program.build_eq_unmatchedClose_iff.mpr hk
  · intro table hbuild i
    exact JumpTable.jump?_eq_partner? hbuild i
  · rw [Program.isBalanced_iff]
    exact Program.balanced_iff_targets

/-- A surplus `]` stops the pass where the scan backwards runs out of symbols; a surplus `[` stops
neither of them, and is the one bracket that both leave without partner. -/
theorem bracket_readings_agree_surplus :
    JumpTable.build (Program.parse "[-][+]]]").symbols = .error (.unmatchedClose 6) ∧
      (∃ table, JumpTable.build (Program.parse "[[-]+").symbols = .ok table ∧
        table.jump? 0 = none ∧ table.jump? 1 = some 3 ∧ table.jump? 7 = none) ∧
      (Program.parse "[[-]+").isBalanced = false ∧ Balanced (Program.parse "[[-]+]").symbols := by
  have hfirst : (Program.parse "[-][+]]]").IsFirstUnmatchedClose 6 := by decide
  have hfault := ((bracket_readings_agree (Program.parse "[-][+]]]")).1 _).mpr ⟨6, rfl, hfirst⟩
  have hbuild : ∃ table, JumpTable.build (Program.parse "[[-]+").symbols = .ok table := ⟨_, rfl⟩
  rcases hbuild with ⟨table, hbuild⟩
  have hjump := (bracket_readings_agree (Program.parse "[[-]+")).2.1 table hbuild
  have hnone : (Program.parse "[[-]+").partner? 0 = none := by decide
  have hsome : (Program.parse "[[-]+").partner? 1 = some 3 := by decide
  have hend : (Program.parse "[[-]+").partner? 7 = none := by decide
  have hunbalanced : (Program.parse "[[-]+").isBalanced = false := by decide
  have hbalanced : (Program.parse "[[-]+]").isBalanced = true := by decide
  have hgrammar := (bracket_readings_agree (Program.parse "[[-]+]")).2.2.2.mp hbalanced
  exact ⟨hfault, ⟨table, hbuild, (hjump 0).trans hnone, (hjump 1).trans hsome,
    (hjump 7).trans hend⟩, hunbalanced, hgrammar⟩

end TapeBreeder
