import TapeBreeder.Proofs.Search.Viability

/-!
# Stagnation along a search

After each generation a search takes note of its lowest cost, and while it is stagnant it charges
runtime in the next one. What it has noted can be read off its snapshots: the lowest costs without
runtime, of the generations that had a valid program.

* `observedCosts`, `observed` — what has been noted by the time of some snapshots.
* `Progress.Follows` — what the snapshots before it say about a snapshot.
* `State.history_next` — a step keeps the notes and the snapshots of a search together.
* `State.IsLowest` — the lowest cost of a population, in which runtime has no part.
* `stagnation_follows` — all snapshots of a search follow from those before them.
-/

namespace TapeBreeder

/-! ## What has been observed -/

/-- The snapshots of the generations that a search has gone on from. -/
def evaluations (snapshots : List Progress) : List Progress :=
  snapshots.filter fun p => p.phase = .evaluating

/-- The lowest costs that a search has taken note of, in order. -/
def observedCosts (snapshots : List Progress) : List Charge :=
  (evaluations snapshots).filterMap (·.bestBaseCost)

/-- What is known of these costs when nothing was known before them. -/
def observed (config : RunConfig) (snapshots : List Progress) : Stagnation :=
  (observedCosts snapshots).foldl Stagnation.observe
    (.start config.evolve.stagnationGenerations.toNat)

/-- Whether a search was stagnant after the last generation that it has gone on from. -/
def lastStagnant (snapshots : List Progress) : Bool :=
  ((evaluations snapshots).getLast?.map (·.stagnant)).getD false

section

variable {config : RunConfig} {snapshots : List Progress} {p : Progress}

theorem evaluations_concat (h : p.phase = .evaluating) :
    evaluations (snapshots ++ [p]) = evaluations snapshots ++ [p] := by
  unfold evaluations
  rw [List.filter_append, List.filter_singleton, decide_eq_true h]
  rfl

/-- The flag of the newest generation is the one that the next generation finds. -/
theorem lastStagnant_concat (h : p.phase = .evaluating) :
    lastStagnant (snapshots ++ [p]) = p.stagnant := by
  unfold lastStagnant
  rw [evaluations_concat h, List.getLast?_concat]
  rfl

/-- Only a generation with a lowest cost adds to what has been observed. -/
theorem observed_concat (h : p.phase = .evaluating) :
    observed config (snapshots ++ [p]) =
      match p.bestBaseCost with
      | some best => (observed config snapshots).observe best
      | none => observed config snapshots := by
  unfold observed observedCosts
  rw [evaluations_concat h, List.filterMap_append]
  cases hbest : p.bestBaseCost with
  | none => rw [List.filterMap_cons_none hbest, List.filterMap_nil, List.append_nil]
  | some best =>
    rw [List.filterMap_cons_some hbest, List.filterMap_nil, List.foldl_append]
    rfl

end

/-! ## Snapshots that follow -/

/-- What the snapshots before it say about a snapshot. That of a generation which a search goes on
from shows what has been observed up to it; runtime was charged in its generation if the settings
say so or if the search was stagnant after the one before. -/
structure Progress.Follows (config : RunConfig) (before : List Progress) (p : Progress) : Prop where
  flatGenerations : p.phase = .evaluating →
    p.flatGenerations = (observed config (before ++ [p])).flatGenerations
  stagnant : p.phase = .evaluating → p.stagnant = (observed config (before ++ [p])).isStagnant
  timeCost : p.IsScored → p.timeCost = (config.cost.timeCost || lastStagnant before)

theorem Progress.Follows.notes {config : RunConfig} {before : List Progress} {p : Progress}
    (h : p.Follows config before) (hphase : p.phase = .evaluating) {after : Stagnation}
    (hafter : observed config (before ++ [p]) = after) {stagnant : Bool}
    (hbefore : lastStagnant before = stagnant) :
    (p.flatGenerations, p.stagnant, p.timeCost) =
      (after.flatGenerations, after.isStagnant, config.cost.timeCost || stagnant) := by
  rw [h.flatGenerations hphase, h.stagnant hphase, h.timeCost (.inl hphase), hafter, hbefore]

/-- A snapshot for which no population has been scored says nothing of the kind. -/
theorem Progress.follows_of_not_isScored {config : RunConfig} {before : List Progress}
    {p : Progress} (h : ¬ p.IsScored) : p.Follows config before := by
  constructor
  · intro hphase
    exact absurd (.inl hphase) h
  · intro hphase
    exact absurd (.inl hphase) h
  · intro hscored
    exact absurd hscored h

/-- Whether each of some snapshots follows from those before it. -/
def FollowsThroughout (config : RunConfig) (snapshots : List Progress) : Prop :=
  ∀ (i : Nat) (p : Progress), snapshots[i]? = some p → p.Follows config (snapshots.take i)

/-- A snapshot is judged by those before it only, so a new one does not disturb the old ones. -/
theorem FollowsThroughout.concat {config : RunConfig} {snapshots : List Progress} {p : Progress}
    (h : FollowsThroughout config snapshots) (hp : p.Follows config snapshots) :
    FollowsThroughout config (snapshots ++ [p]) := by
  intro i q hq
  -- By the place of the snapshot: among the old ones, the new one, or behind all of them.
  rcases Nat.lt_trichotomy i snapshots.length with hlt | rfl | hgt
  · rw [List.getElem?_append_left hlt] at hq
    rw [List.take_append_of_le_length (Nat.le_of_lt hlt)]
    exact h i q hq
  · rw [List.getElem?_concat_length] at hq
    obtain rfl := Option.some.inj hq
    rwa [List.take_left]
  · rw [List.getElem?_eq_none] at hq
    · cases hq
    · rw [List.length_append, List.length_singleton]
      omega

variable {σ : Type}

/-- Whether a charge is the lowest cost of a population, by the costs without runtime. -/
def State.IsLowest (clock : Clock) (s : State σ) (best : Charge) : Prop :=
  (∃ p ∈ s.population,
    (p.baseCost clock s.engine.config.cost s.engine.examples).cost = .valid best) ∧
  ∀ p ∈ s.population, ∀ total,
    (p.baseCost clock s.engine.config.cost s.engine.examples).cost = .valid total → best ≤ total

namespace State

variable [RandomSource σ] {clock : Clock} {monitor : Monitor} {e : Engine σ} {s t : State σ}

/-! ## Histories -/

/-- Whether the notes of a search agree with its snapshots so far. -/
structure History (config : RunConfig) (s : State σ) : Prop where
  stagnation : s.engine.stagnation = observed config s.snapshots.reverse
  stagnant : s.engine.stagnation.isStagnant = lastStagnant s.snapshots.reverse
  follows : FollowsThroughout config s.snapshots.reverse

/-- A search begins with nothing observed and one snapshot, which shows nothing of a generation. -/
theorem history_start (monitor : Monitor) (e : Engine σ) :
    History e.config (start monitor e) := by
  have hnone : FollowsThroughout e.config [] := by
    intro i p hp
    cases hp
  refine ⟨rfl, rfl, ?_⟩
  rcases start_snapshot monitor e with ⟨p, hsnapshots, hphase⟩
  rw [hsnapshots]
  have hfollows : p.Follows e.config [] :=
    Progress.follows_of_not_isScored (Progress.not_isScored (.inl hphase))
  exact hnone.concat hfollows

/-- A step takes one snapshot, and what it takes note of is what the snapshot tells. -/
theorem history_next (hs : History s.engine.config s) (hstep : s.step clock monitor = .next t) :
    History s.engine.config t := by
  rcases next_snapshot hstep with
    ⟨hstagnation, p, hsnapshots, hphase, htells, hflat, hstagnant⟩
  have hreverse : t.snapshots.reverse = s.snapshots.reverse ++ [p] := by
    rw [hsnapshots, List.reverse_cons]
  -- The lowest cost that the snapshot tells is the one that has been observed, if there was any.
  have hobserved : observed s.engine.config (s.snapshots.reverse ++ [p]) =
      s.stagnationAfter clock := by
    rw [observed_concat hphase, htells.bestBaseCost, ← hs.stagnation]
    rfl
  constructor
  · rw [hstagnation, hreverse, hobserved]
  · rw [hstagnation, hreverse, lastStagnant_concat hphase, hstagnant]
  · rw [hreverse]
    apply hs.follows.concat
    constructor
    · intro _
      rw [hobserved, hflat]
    · intro _
      rw [hobserved, hstagnant]
    · intro _
      rw [htells.timeCost, timeCost_evaluate, hs.stagnant]

/-- The notes of a search agree with its snapshots at any time. -/
theorem Reachable.history (hs : Reachable clock monitor e s) : History e.config s := by
  induction hs with
  | start => exact history_start monitor e
  | next hs hstep ih =>
    rw [← hs.carried.1] at ih ⊢
    exact history_next ih hstep

/-- The snapshots follow from one another up to the last one, which is of an end. -/
theorem Visits.follows (ht : Visits clock monitor e t) :
    FollowsThroughout e.config t.snapshots.reverse := by
  cases ht with
  | between hs => exact hs.history.follows
  | last hs hstep =>
    rcases finished_snapshot hstep with ⟨p, hsnapshots, hp⟩
    rw [hsnapshots, List.reverse_cons]
    apply hs.history.follows.concat
    rcases hp with hstopped | ⟨hcomplete, htells⟩
    · exact Progress.follows_of_not_isScored (Progress.not_isScored (.inr hstopped))
    · -- The last generation is not gone on from, but it has been scored.
      constructor
      · intro hphase
        rw [hcomplete] at hphase
        cases hphase
      · intro hphase
        rw [hcomplete] at hphase
        cases hphase
      · intro _
        rw [htells.timeCost, timeCost_evaluate, hs.carried.1, hs.history.stagnant]

end State

/-! ## Whole searches -/

variable [RandomSource σ]

/-- What the snapshots of a search say about stagnation: each follows from those before it, and the
lowest costs that they tell are those of the populations, by costs that neither depend on whether
runtime was charged nor on what was measured. -/
structure StagnationTrace (clock : Clock) (monitor : Monitor) (e : Engine σ)
    (snapshots : List Progress) : Prop where
  follows : FollowsThroughout e.config snapshots
  lowest : ∀ p ∈ snapshots, p.IsScored →
    ∃ s, State.Reachable clock monitor e s ∧ s.engine.generation = p.generation ∧
      ∀ clock' : Clock, clock'.symbolsWithin = clock.symbolsWithin →
        ∀ best, p.bestBaseCost = some best ↔ s.IsLowest clock' best

/-- Both parts of a trace, for the snapshots of any state that a search is in. -/
theorem State.Visits.stagnationTrace {clock : Clock} {monitor : Monitor} {e : Engine σ}
    {t : State σ} (ht : Visits clock monitor e t) :
    StagnationTrace clock monitor e t.snapshots.reverse := by
  refine ⟨ht.follows, ?_⟩
  intro p hp hscored
  rcases ht.exists_tellsOf (List.mem_reverse.mp hp) hscored with ⟨s, hs, htells⟩
  refine ⟨s, hs, htells.generation.symm, ?_⟩
  -- Base costs depend on the budgets of a clock and not on what it measures.
  intro clock' hclock best
  rw [htells.bestBaseCost]
  exact State.bestBaseCost?_evaluate_eq_some_iff hclock

/-- Whatever an earlier search has left behind, the stagnation that the snapshots of a search tell
is that of the lowest costs they tell, beginning with none; a generation without a valid program
adds nothing and changes nothing. Runtime is charged in a generation if the settings say so, or if
the search was stagnant after the generation before it. What is observed is the lowest cost without
runtime, although the programs are sorted by their costs with it. -/
theorem stagnation_follows (clock : Clock) (monitor : Monitor) (e : Engine σ) :
    (∀ t, State.Visits clock monitor e t →
      StagnationTrace clock monitor e t.snapshots.reverse) ∧
    ∀ rounds r, e.run clock monitor rounds = some r →
      StagnationTrace clock monitor e r.snapshots := by
  constructor
  · intro t ht
    exact ht.stagnationTrace
  · intro rounds r hrun
    rcases Engine.exists_visits_of_run hrun with ⟨t, ht, hsnapshots⟩
    rw [hsnapshots]
    exact ht.stagnationTrace

/-- The search through two equal costs, with a generation without a valid program between them. -/
theorem Engine.exists_visits_split :
    ∃ t p₀ p₁ p₂ p₃ p₄, State.Visits .steady (.passive none) split t ∧
      t.snapshots.reverse = [p₀, p₁, p₂, p₃, p₄] ∧ p₀.phase = .initializing ∧
      (p₁.phase = .evaluating ∧ p₁.bestBaseCost = some 99) ∧
      (p₂.phase = .evaluating ∧ p₂.bestBaseCost = none) ∧
      (p₃.phase = .evaluating ∧ p₃.bestBaseCost = some 99) ∧ p₄.IsScored := by
  rcases exists_states_split with ⟨s₁, s₂, hstep₀, hscored, hstep₁, hpopulation⟩
  have hs₂ : State.Reachable .steady (.passive none) split s₂ :=
    (State.Reachable.start.next hstep₀).next hstep₁
  have hwatched := Monitor.cancels_passive none
  have hcancelled₂ := State.cancelled_next hwatched hstep₁
  have hlimit₂ := reachedLimit?_split hs₂.carried.1
  have hevaluate₂ := State.evaluate_split hs₂.carried.1 hs₂.carried.2 hpopulation
  have hnext : ∃ s₃, s₂.step .steady (.passive none) = .next s₃ := by
    apply State.exists_next hcancelled₂ hlimit₂
    rw [hevaluate₂]
  rcases hnext with ⟨s₃, hstep₂⟩
  have hs₃ := hs₂.next hstep₂
  -- One snapshot for each state, and one more for the fourth generation.
  rcases State.start_snapshot (.passive none) split with ⟨p₀, hsnapshots₀, hphase₀⟩
  rcases State.next_snapshot hstep₀ with ⟨-, p₁, hsnapshots₁, hphase₁, htells₁, -⟩
  rcases State.next_snapshot hstep₁ with ⟨-, p₂, hsnapshots₂, hphase₂, htells₂, -⟩
  rcases State.next_snapshot hstep₂ with ⟨-, p₃, hsnapshots₃, hphase₃, htells₃, -⟩
  rcases hs₃.exists_visits (State.cancelled_next hwatched hstep₂)
    (reachedLimit?_split hs₃.carried.1) with ⟨t, p₄, ht, hsnapshots₄, hscored₄⟩
  have hsnapshots : t.snapshots.reverse = [p₀, p₁, p₂, p₃, p₄] := by
    rw [hsnapshots₄, hsnapshots₃, hsnapshots₂, hsnapshots₁, hsnapshots₀]
    rfl
  have hbest₁ : p₁.bestBaseCost = some 99 := by
    rw [htells₁.bestBaseCost, evaluate_start_split]
    rfl
  have hbest₂ : p₂.bestBaseCost = none := by
    rw [htells₂.bestBaseCost, Evaluation.bestBaseCost?_eq_none_iff]
    exact hscored
  have hbest₃ : p₃.bestBaseCost = some 99 := by
    rw [htells₃.bestBaseCost, hevaluate₂]
    rfl
  exact ⟨t, p₀, p₁, p₂, p₃, p₄, ht, hsnapshots, hphase₀, ⟨hphase₁, hbest₁⟩, ⟨hphase₂, hbest₂⟩,
    ⟨hphase₃, hbest₃⟩, hscored₄⟩

/-- A generation without a valid program does not come between two equal costs; the search is
stagnant after the second of them, and charges runtime in the generation after that. -/
theorem stagnation_follows_split :
    ∃ t p₀ p₁ p₂ p₃ p₄, State.Visits .steady (.passive none) Engine.split t ∧
      t.snapshots.reverse = [p₀, p₁, p₂, p₃, p₄] ∧
      [p₁, p₂, p₃].map (fun p => (p.bestBaseCost, p.flatGenerations, p.stagnant, p.timeCost)) =
        [(some 99, 0, false, false), (none, 0, false, false), (some 99, 1, true, false)] ∧
      p₄.timeCost = true := by
  rcases Engine.exists_visits_split with ⟨t, p₀, p₁, p₂, p₃, p₄, ht, hsnapshots, hphase₀,
    ⟨hphase₁, hbest₁⟩, ⟨hphase₂, hbest₂⟩, ⟨hphase₃, hbest₃⟩, hscored₄⟩
  have htrace := (stagnation_follows .steady (.passive none) Engine.split).1 t ht
  rw [hsnapshots] at htrace
  have hnone : observed Engine.split.config [p₀] = .start 1 ∧ lastStagnant [p₀] = false := by
    unfold observed lastStagnant observedCosts evaluations
    rw [List.filter_singleton, hphase₀]
    constructor <;> rfl
  have hobserved₁ : observed Engine.split.config ([p₀] ++ [p₁]) = ⟨1, some 99, 0, false⟩ := by
    rw [observed_concat hphase₁, hbest₁, hnone.1]
    rfl
  have hobserved₂ : observed Engine.split.config ([p₀, p₁] ++ [p₂]) = ⟨1, some 99, 0, false⟩ := by
    rw [observed_concat hphase₂, hbest₂]
    exact hobserved₁
  have hobserved₃ : observed Engine.split.config ([p₀, p₁, p₂] ++ [p₃]) =
      ⟨1, some 99, 1, true⟩ := by
    rw [observed_concat hphase₃, hbest₃]
    exact congrArg (Stagnation.observe · 99) hobserved₂
  have hnotes₁ := (htrace.follows 1 p₁ rfl).notes hphase₁ hobserved₁ hnone.2
  have hstagnant₁ : lastStagnant ([p₀] ++ [p₁]) = false := by
    rw [lastStagnant_concat hphase₁]
    exact congrArg (·.2.1) hnotes₁
  have hnotes₂ := (htrace.follows 2 p₂ rfl).notes hphase₂ hobserved₂ hstagnant₁
  have hstagnant₂ : lastStagnant ([p₀, p₁] ++ [p₂]) = false := by
    rw [lastStagnant_concat hphase₂]
    exact congrArg (·.2.1) hnotes₂
  have hnotes₃ := (htrace.follows 3 p₃ rfl).notes hphase₃ hobserved₃ hstagnant₂
  have hstagnant₃ : lastStagnant ([p₀, p₁, p₂] ++ [p₃]) = true := by
    rw [lastStagnant_concat hphase₃]
    exact congrArg (·.2.1) hnotes₃
  refine ⟨t, p₀, p₁, p₂, p₃, p₄, ht, hsnapshots, ?_, ?_⟩
  · simp only [List.map_cons, List.map_nil, hbest₁, hbest₂, hbest₃, hnotes₁, hnotes₂, hnotes₃]
    rfl
  · exact ((htrace.follows 4 p₄ rfl).timeCost hscored₄).trans
      (congrArg (Engine.split.config.cost.timeCost || ·) hstagnant₃)

end TapeBreeder
