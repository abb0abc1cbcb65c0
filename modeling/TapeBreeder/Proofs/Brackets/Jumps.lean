import TapeBreeder.Proofs.Brackets.Leftover

/-!
# Jump tables

A jump table is filled in one pass, with the positions of the open loops on a stack. The pass does
with a stack what depth does with a counter, so it links the brackets that belong together, and it
gets stuck where more loops are closed than have been opened.

* `jump?_of_isPair` — the two ends of a pair point at each other.
* `exists_isPair_of_close` — where the table can be built, every `]` is the end of a pair.
* `Overcloses`, `IsFirstOverclose` — prefixes with more `]`s than `[`s, and the first of them.
* `build_eq_error_iff` — the table cannot be built exactly because of that first prefix.
-/

namespace TapeBreeder

open Program (depthAfter?)

/-! ## The ends of a pair -/

namespace IsPair

variable {symbols : List Symbol} {first second : Nat}

theorem getElem?_first (h : IsPair symbols first second) :
    symbols[first]? = some .loopOpen := by
  rcases h with ⟨xs, ys, zs, rfl, -, rfl, -⟩
  rw [List.getElem?_append_right (Nat.le_refl _), Nat.sub_self, List.getElem?_cons_zero]

/-- A pair ends with a `]`. -/
theorem getElem?_second (h : IsPair symbols first second) :
    symbols[second]? = some .loopClose := by
  rcases h with ⟨xs, ys, zs, rfl, -, -, rfl⟩
  have hsplit : xs ++ .loopOpen :: (ys ++ .loopClose :: zs) =
      (xs ++ .loopOpen :: ys) ++ .loopClose :: zs := by
    rw [List.append_assoc, List.cons_append]
  have hlength : (xs ++ .loopOpen :: ys).length = xs.length + ys.length + 1 := by
    rw [List.length_append, List.length_cons, Nat.add_assoc]
  rw [hsplit, List.getElem?_append_right (Nat.le_of_eq hlength), hlength, Nat.sub_self,
    List.getElem?_cons_zero]

end IsPair

/-- Where the depth never falls below zero, every `]` is the end of a pair. -/
theorem exists_isPair_of_close {symbols : List Symbol} (hsome : (depthAfter? 0 symbols).isSome)
    {i : Nat} (hclose : symbols[i]? = some .loopClose) : ∃ j, IsPair symbols j i := by
  rcases eq_append_of_getElem? hclose with ⟨xs, zs, rfl, rfl⟩
  cases hpartner : (Program.mk (xs ++ .loopClose :: zs)).partner? xs.length with
  | none =>
    -- Without a partner nothing is open before the `]`, and so it is left over.
    have hopens := opens_eq_zero_of_partner?_eq_none hpartner
    rw [isSome_depthAfter?_iff, leftover_append, leftover_cons] at hsome
    simp only [Leftover.closes_append, Symbol.leftover] at hsome
    omega
  | some j =>
    rcases isPair_of_partner? hpartner with hpair | hpair
    · -- The symbol would have to be a `[` to be the first of a pair.
      have hopen : (xs ++ .loopClose :: zs)[xs.length]? = some .loopOpen := hpair.getElem?_first
      rw [hclose] at hopen
      cases hopen
    · exact ⟨j, hpair⟩

/-! ## Filling -/

namespace JumpTable

theorem fill_plain {s : Symbol} (hs : s.isBracket = false) (rest : List Symbol) (position : Nat)
    (opened : List Nat) (targets : Array (Option Nat)) :
    fill (s :: rest) position opened targets = fill rest (position + 1) opened targets := by
  cases s with
  | loopOpen => cases hs
  | loopClose => cases hs
  | _ => rfl

/-- A balanced row leaves the stack as it was. -/
theorem fill_balanced_append {ys : List Symbol} (h : Balanced ys) (position : Nat)
    (opened : List Nat) (targets : Array (Option Nat)) :
    ∃ targets', targets'.size = targets.size ∧ ∀ rest,
      fill (ys ++ rest) position opened targets =
        fill rest (position + ys.length) opened targets' := by
  induction h generalizing position opened targets with
  | nil => exact ⟨targets, rfl, fun _ => rfl⟩
  | @plain s rest hs _ ih =>
    rcases ih (position + 1) opened targets with ⟨targets', hsize, hfill⟩
    refine ⟨targets', hsize, ?_⟩
    intro more
    rw [List.cons_append, fill_plain hs, hfill, List.length_cons, Nat.add_right_comm,
      ← Nat.add_assoc]
  | @loop body rest _ _ ihbody ihrest =>
    -- The body is filled with the loop on the stack, and what follows it with the loop linked and
    -- off the stack again.
    rcases ihbody (position + 1) (position :: opened) targets with ⟨targets₁, hsize₁, hbody⟩
    rcases ihrest (position + 1 + body.length + 1) opened
        ((targets₁.setIfInBounds position (some (position + 1 + body.length))).setIfInBounds
          (position + 1 + body.length) (some position)) with ⟨targets₂, hsize₂, hrest⟩
    refine ⟨targets₂, ?_, ?_⟩
    · rw [hsize₂, Array.size_setIfInBounds, Array.size_setIfInBounds, hsize₁]
    · intro more
      have hlength : position + (Symbol.loopOpen :: (body ++ .loopClose :: rest)).length =
          position + 1 + body.length + 1 + rest.length := by
        simp only [List.length_cons, List.length_append]
        omega
      rw [hlength, ← hrest, List.cons_append, List.append_assoc, fill, hbody, List.cons_append,
        fill]

/-- Filling goes on from a position with some open loops, and leaves alone all that is before that
position, except for the open loops that it closes: as many as there are `]`s left over. -/
theorem fill_frame {xs : List Symbol} {position : Nat} {opened : List Nat}
    {targets targets' : Array (Option Nat)} (h : fill xs position opened targets = .ok targets')
    {k : Nat} (hk : k < position) (hclosed : k ∉ opened.take (leftover xs).closes) :
    targets'[k]? = targets[k]? := by
  induction xs generalizing position opened targets with
  | nil =>
    cases h
    rfl
  | cons s xs ih =>
    rcases Program.symbol_cases s with rfl | rfl | hs
    · have hcloses : (leftover (.loopOpen :: xs)).closes = (leftover xs).closes - 1 := by
        rw [leftover_cons]
        simp only [Leftover.closes_append, Symbol.leftover, Nat.zero_add]
      rw [hcloses] at hclosed
      -- The new loop lies behind `k`, so that `k` is not among those to be closed if the `[` is one
      -- of them.
      apply ih h (Nat.lt_succ_of_lt hk)
      cases hleft : (leftover xs).closes with
      | zero =>
        rw [List.take_zero]
        exact List.not_mem_nil
      | succ n =>
        rw [hleft, Nat.add_sub_cancel] at hclosed
        rw [List.take_succ_cons, List.mem_cons, not_or]
        exact ⟨Nat.ne_of_lt hk, hclosed⟩
    · have hcloses : (leftover (.loopClose :: xs)).closes = (leftover xs).closes + 1 := by
        rw [leftover_cons]
        simp only [Leftover.closes_append, Symbol.leftover, Nat.sub_zero]
        exact Nat.add_comm _ _
      cases opened with
      | nil => cases h
      | cons start opened =>
        -- Two targets are set here: one at the position, and one at a loop that is closed, neither
        -- of which is `k`.
        rw [hcloses, List.take_succ_cons, List.mem_cons, not_or] at hclosed
        have hrest := ih h (Nat.lt_succ_of_lt hk) hclosed.2
        rw [hrest, Array.getElem?_setIfInBounds_ne (Nat.ne_of_gt hk),
          Array.getElem?_setIfInBounds_ne (Ne.symm hclosed.1)]
    · rw [fill_plain hs] at h
      rw [leftover_cons_plain hs] at hclosed
      exact ih h (Nat.lt_succ_of_lt hk) hclosed

/-- When filling is over, the two ends of a pair behind the first position point at each other. -/
theorem fill_pair {xs ys zs : List Symbol} (hys : Balanced ys) {position : Nat}
    {opened : List Nat} {targets targets' : Array (Option Nat)}
    (h : fill (xs ++ .loopOpen :: (ys ++ .loopClose :: zs)) position opened targets = .ok targets')
    (hopened : ∀ start ∈ opened, start < position)
    (hsize : position + xs.length + ys.length + 1 < targets.size) :
    targets'[position + xs.length]? = some (some (position + xs.length + ys.length + 1)) ∧
      targets'[position + xs.length + ys.length + 1]? = some (some (position + xs.length)) := by
  induction xs generalizing position opened targets with
  | nil =>
    rcases fill_balanced_append hys (position + 1) (position :: opened) targets with
      ⟨targets₁, hsize₁, hbody⟩
    rw [List.nil_append, fill, hbody, fill] at h
    rw [List.length_nil, Nat.add_zero, Nat.add_right_comm] at hsize ⊢
    -- Loops that are still open began earlier, so that neither end is on the stack any more.
    have hpopped : ∀ k, position ≤ k → k ∉ opened.take (leftover zs).closes := by
      intro k hk hmem
      exact absurd (hopened k (List.mem_of_mem_take hmem)) (Nat.not_lt_of_le hk)
    constructor
    · rw [fill_frame h (by omega) (hpopped position (Nat.le_refl _)),
        Array.getElem?_setIfInBounds_ne (by omega), Array.getElem?_setIfInBounds_self_of_lt]
      omega
    · rw [fill_frame h (Nat.lt_succ_self _) (hpopped _ (by omega)),
        Array.getElem?_setIfInBounds_self_of_lt]
      rw [Array.size_setIfInBounds]
      omega
  | cons s xs ih =>
    have hlength : position + (s :: xs).length = position + 1 + xs.length := by
      rw [List.length_cons]
      omega
    -- Whatever is open at the next position began before it.
    have hlater : ∀ start ∈ opened, start < position + 1 := by
      intro start hstart
      exact Nat.lt_succ_of_lt (hopened start hstart)
    rw [hlength] at hsize ⊢
    rcases Program.symbol_cases s with rfl | rfl | hs
    · refine ih h ?_ hsize
      intro start hstart
      rcases List.mem_cons.mp hstart with rfl | hstart
      · exact Nat.lt_succ_self _
      · exact hlater start hstart
    · cases opened with
      | nil => cases h
      | cons start opened =>
        refine ih h ?_ ?_
        · intro other hother
          exact hlater other (List.mem_cons_of_mem _ hother)
        · rwa [Array.size_setIfInBounds, Array.size_setIfInBounds]
    · rw [List.cons_append, fill_plain hs] at h
      exact ih h hlater hsize

/-! ## Tables -/

variable {symbols : List Symbol} {table : JumpTable}

/-- A table that can be built has been filled from its first position, with nothing on the stack and
no targets. -/
theorem fill_of_build (h : build symbols = .ok table) :
    fill symbols 0 [] (Array.replicate symbols.length none) = .ok table.targets := by
  unfold build at h
  cases hfill : fill symbols 0 [] (Array.replicate symbols.length none) with
  | ok targets =>
    rw [hfill] at h
    cases h
    rfl
  | error fault =>
    rw [hfill] at h
    cases h

/-- The table of a program has been built only if its depth never falls below zero. -/
theorem isSome_depthAfter?_of_build (h : build symbols = .ok table) :
    (depthAfter? 0 symbols).isSome := by
  have hfill := fill_isOk symbols 0 [] (Array.replicate symbols.length none)
  rw [fill_of_build h] at hfill
  exact hfill.symm

/-- In the table of a program, the two ends of a pair point at each other. -/
theorem jump?_of_isPair (h : build symbols = .ok table) {first second : Nat}
    (hpair : IsPair symbols first second) :
    table.jump? first = some second ∧ table.jump? second = some first := by
  rcases hpair with ⟨xs, ys, zs, rfl, hys, rfl, rfl⟩
  have hsize : 0 + xs.length + ys.length + 1 <
      (Array.replicate (xs ++ .loopOpen :: (ys ++ .loopClose :: zs)).length
        (none : Option Nat)).size := by
    simp only [Array.size_replicate, List.length_append, List.length_cons]
    omega
  -- Both ends are within the table, and at the beginning no loop is open.
  have hends := fill_pair hys (fill_of_build h) (by simp) hsize
  rw [Nat.zero_add] at hends
  unfold jump?
  rw [hends.1, hends.2]
  exact ⟨rfl, rfl⟩

end JumpTable

/-! ## Where filling gets stuck -/

/-- Whether a row, read with so many loops open, has more `]`s than there are loops to close. -/
def Overcloses (depth : Nat) (xs : List Symbol) : Prop :=
  depth + xs.count .loopOpen < xs.count .loopClose

/-- Whether the prefix that ends with the symbol at `position` is the first one to overclose. -/
def IsFirstOverclose (depth : Nat) (xs : List Symbol) (position : Nat) : Prop :=
  Overcloses depth (xs.take (position + 1)) ∧ ∀ n, n ≤ position → ¬ Overcloses depth (xs.take n)

instance (depth : Nat) (xs : List Symbol) : Decidable (Overcloses depth xs) :=
  inferInstanceAs (Decidable (_ < _))

instance (depth : Nat) (xs : List Symbol) (position : Nat) :
    Decidable (IsFirstOverclose depth xs position) :=
  inferInstanceAs (Decidable (_ ∧ _))

theorem not_overcloses_nil (depth : Nat) : ¬ Overcloses depth [] :=
  Nat.not_lt_zero _

theorem overcloses_open (depth : Nat) (xs : List Symbol) :
    Overcloses depth (.loopOpen :: xs) ↔ Overcloses (depth + 1) xs := by
  unfold Overcloses
  rw [List.count_cons_self, List.count_cons_of_ne (by decide)]
  omega

theorem overcloses_close (depth : Nat) (xs : List Symbol) :
    Overcloses (depth + 1) (.loopClose :: xs) ↔ Overcloses depth xs := by
  unfold Overcloses
  rw [List.count_cons_self, List.count_cons_of_ne (by decide)]
  omega

/-- Symbols that are no brackets do not count. -/
theorem overcloses_plain {s : Symbol} (hs : s.isBracket = false) (depth : Nat)
    (xs : List Symbol) : Overcloses depth (s :: xs) ↔ Overcloses depth xs := by
  have hopen : s ≠ .loopOpen := by
    rintro rfl
    cases hs
  have hclose : s ≠ .loopClose := by
    rintro rfl
    cases hs
  unfold Overcloses
  rw [List.count_cons_of_ne hopen, List.count_cons_of_ne hclose]

/-- A symbol that turns one depth into another moves the first overclose by one place. -/
theorem isFirstOverclose_cons {s : Symbol} {depth after : Nat}
    (h : ∀ ys, Overcloses depth (s :: ys) ↔ Overcloses after ys) (xs : List Symbol) (k : Nat) :
    IsFirstOverclose depth (s :: xs) k ↔ ∃ n, k = n + 1 ∧ IsFirstOverclose after xs n := by
  cases k with
  -- The prefix of one symbol does not overclose, since what is read after it is empty.
  | zero =>
    constructor
    · rintro ⟨hfirst, -⟩
      rw [List.take_succ_cons, h] at hfirst
      exact absurd hfirst (not_overcloses_nil after)
    · rintro ⟨n, hn, -⟩
      cases hn
  | succ k =>
    unfold IsFirstOverclose
    rw [List.take_succ_cons, h]
    constructor
    · rintro ⟨hlast, hbefore⟩
      refine ⟨k, rfl, hlast, ?_⟩
      intro n hn
      rw [← h, ← List.take_succ_cons]
      exact hbefore (n + 1) (Nat.succ_le_succ hn)
    · rintro ⟨n, hn, hlast, hbefore⟩
      obtain rfl := Nat.succ.inj hn
      refine ⟨hlast, ?_⟩
      intro m hm
      cases m with
      | zero => exact not_overcloses_nil depth
      | succ m =>
        rw [List.take_succ_cons, h]
        exact hbefore m (Nat.le_of_succ_le_succ hm)

/-- With no loop open, a `]` overcloses at once. -/
theorem isFirstOverclose_close_zero (xs : List Symbol) (k : Nat) :
    IsFirstOverclose 0 (.loopClose :: xs) k ↔ k = 0 := by
  have hone : Overcloses 0 ((Symbol.loopClose :: xs).take 1) := by
    rw [List.take_succ_cons, List.take_zero]
    decide
  constructor
  · rintro ⟨-, hbefore⟩
    by_contra hk
    exact hbefore 1 (Nat.pos_of_ne_zero hk) hone
  · rintro rfl
    refine ⟨hone, ?_⟩
    intro n hn
    obtain rfl := Nat.le_zero.mp hn
    exact not_overcloses_nil 0

/-- If any prefix overcloses, one of them is the first. -/
theorem exists_isFirstOverclose {depth n : Nat} {xs : List Symbol}
    (h : Overcloses depth (xs.take n)) : ∃ k, IsFirstOverclose depth xs k := by
  induction n using Nat.strongRecOn with
  | ind n ih =>
    by_cases hearlier : ∃ m, m < n ∧ Overcloses depth (xs.take m)
    · rcases hearlier with ⟨m, hm, hoverclose⟩
      exact ih m hm hoverclose
    · cases n with
      | zero => exact absurd h (not_overcloses_nil depth)
      | succ n =>
        refine ⟨n, h, ?_⟩
        intro m hm hoverclose
        exact hearlier ⟨m, Nat.lt_succ_of_le hm, hoverclose⟩

namespace JumpTable

/-- A symbol that is passed moves both the position and the first overclose by one place. -/
theorem isFirstOverclose_passed_iff {s : Symbol} {depth after : Nat}
    (h : ∀ ys, Overcloses depth (s :: ys) ↔ Overcloses after ys) {rest : List Symbol}
    {position : Nat} {fault : BracketError} :
    (∃ k, fault = .unmatchedClose (position + 1 + k) ∧ IsFirstOverclose after rest k) ↔
      ∃ k, fault = .unmatchedClose (position + k) ∧ IsFirstOverclose depth (s :: rest) k := by
  constructor
  · rintro ⟨k, hfault, hk⟩
    rw [Nat.add_assoc, Nat.add_comm 1 k] at hfault
    exact ⟨k + 1, hfault, (isFirstOverclose_cons h rest _).mpr ⟨k, rfl, hk⟩⟩
  · rintro ⟨k, hfault, hk⟩
    rcases (isFirstOverclose_cons h rest k).mp hk with ⟨n, rfl, hn⟩
    rw [Nat.add_comm n 1, ← Nat.add_assoc] at hfault
    exact ⟨n, hfault, hn⟩

/-- Filling fails with the first `]` that has nothing to close, and with nothing else. -/
theorem fill_eq_error_iff {xs : List Symbol} {position : Nat} {opened : List Nat}
    {targets : Array (Option Nat)} {fault : BracketError} :
    fill xs position opened targets = .error fault ↔
      ∃ k, fault = .unmatchedClose (position + k) ∧ IsFirstOverclose opened.length xs k := by
  induction xs generalizing position opened targets with
  | nil =>
    constructor
    · intro h
      cases h
    · rintro ⟨k, -, hlast, -⟩
      rw [List.take_nil] at hlast
      exact absurd hlast (not_overcloses_nil _)
  | cons s xs ih =>
    rcases Program.symbol_cases s with rfl | rfl | hs
    · -- The loop goes on the stack, and the depth is the height of the stack.
      rw [← isFirstOverclose_passed_iff (overcloses_open opened.length)]
      exact ih
    · cases opened with
      | nil =>
        -- Nothing is on the stack, so this `]` has nothing to close.
        simp only [List.length_nil, isFirstOverclose_close_zero]
        constructor
        · intro h
          exact ⟨0, (Except.error.inj h).symm, rfl⟩
        · rintro ⟨k, rfl, rfl⟩
          rfl
      | cons start opened =>
        rw [List.length_cons, ← isFirstOverclose_passed_iff (overcloses_close opened.length)]
        exact ih
    · rw [fill_plain hs, ← isFirstOverclose_passed_iff (overcloses_plain hs opened.length)]
      exact ih

/-- A table cannot be built exactly if some prefix overcloses, and the fault is the `]` at the end
of the first one that does. -/
theorem build_eq_error_iff {symbols : List Symbol} {fault : BracketError} :
    build symbols = .error fault ↔
      ∃ k, fault = .unmatchedClose k ∧ IsFirstOverclose 0 symbols k := by
  have hfill : fill symbols 0 [] (Array.replicate symbols.length none) = .error fault ↔
      ∃ k, fault = .unmatchedClose (0 + k) ∧ IsFirstOverclose 0 symbols k :=
    fill_eq_error_iff
  simp only [Nat.zero_add] at hfill
  rw [← hfill]
  unfold build
  cases fill symbols 0 [] (Array.replicate symbols.length none) with
  | ok targets =>
    constructor <;> intro h <;> cases h
  | error other =>
    constructor <;> intro h <;> cases h <;> rfl

/-- In a program with a table no prefix has more `]`s than `[`s. -/
theorem not_overcloses_of_build {symbols : List Symbol} {table : JumpTable}
    (h : build symbols = .ok table) (n : Nat) : ¬ Overcloses 0 (symbols.take n) := by
  intro hoverclose
  rcases exists_isFirstOverclose hoverclose with ⟨k, hfirst⟩
  have herror : build symbols = .error (.unmatchedClose k) :=
    build_eq_error_iff.mpr ⟨k, rfl, hfirst⟩
  rw [h] at herror
  cases herror

end JumpTable

end TapeBreeder
