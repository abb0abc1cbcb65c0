import Mathlib.Algebra.Group.Nat.Even
import TapeBreeder.Proofs.Search.Observation
import TapeBreeder.Proofs.Search.Stagnation

/-!
# The log and the snapshots

A search that keeps its informational records tells twice what becomes of it: in its log and in its
snapshots. The two agree. The log has a record for each generation in which stagnation begins or
ends by the snapshots, and it closes with one record that tells the end as the last snapshot and the
result of the run do.

* `Event.isTurn`, `Event.isEnding` — the records in question.
* `turns` — the records of beginnings and ends of stagnation, as the snapshots call for them.
* `Stagnation.IsShort` — a search that is not stagnant has not been flat for long. By it the record
  of a beginning tells the threshold (`Stagnation.flatGenerations_of_begun`).
* `State.turns_next`, `State.endings_next` — what a step that goes on adds to the log.
* `State.Reachable.turns_eq`, `State.Reachable.endings` — what the log says before a generation.
* `Event.Ends` — a record, a last snapshot and a result that tell of the same end.
* `records_follow_snapshots` — what the log of a search says, by its snapshots.
-/

namespace TapeBreeder

/-! ## Records -/

namespace Event

/-- Whether a record tells that stagnation begins. -/
def isBeginning : Event → Bool
  | stagnationBegun .. => true
  | _ => false

/-- Whether a record tells that stagnation begins or ends. -/
def isTurn : Event → Bool
  | stagnationBegun .. | stagnationEnded .. => true
  | _ => false

/-- Whether a record tells that stagnation begins or ends in a generation. -/
def isTurnOf (generation : Nat) : Event → Bool
  | stagnationBegun g _ | stagnationEnded g => g = generation
  | _ => false

/-- Whether a record tells how a search ends. -/
def isEnding : Event → Bool
  | cancelled .. | limitReached .. | found .. => true
  | _ => false

theorem isTurn_of_isTurnOf {generation : Nat} {event : Event}
    (h : event.isTurnOf generation = true) : event.isTurn = true := by
  cases event <;> simp_all [isTurn, isTurnOf]

end Event

/-! ## What the snapshots tell -/

/-- The record of a generation in which stagnation begins or ends. -/
def Progress.turn (config : RunConfig) (p : Progress) : Event :=
  if p.stagnant then
    .stagnationBegun p.generation (max config.evolve.stagnationGenerations.toNat 1)
  else .stagnationEnded p.generation

/-- The records of these generations among some that a search has gone on from, when it was stagnant
before them or not. -/
def turns (config : RunConfig) (stagnant : Bool) : List Progress → List Event
  | [] => []
  | p :: later =>
    if p.stagnant = stagnant then turns config stagnant later
    else p.turn config :: turns config p.stagnant later

section

variable {config : RunConfig} {stagnant : Bool} {p : Progress} {snapshots : List Progress}

theorem Progress.isBeginning_turn : (p.turn config).isBeginning = p.stagnant := by
  unfold turn
  by_cases h : p.stagnant <;> simp [h, Event.isBeginning]

theorem Progress.isTurnOf_turn {generation : Nat} :
    (p.turn config).isTurnOf generation = decide (p.generation = generation) := by
  unfold turn
  by_cases h : p.stagnant <;> simp [h, Event.isTurnOf]

/-- What is said of some snapshots goes on with what is said of those after them. -/
theorem turns_append (before after : List Progress) :
    turns config stagnant (before ++ after) =
      turns config stagnant before ++
        turns config ((before.getLast?.map (·.stagnant)).getD stagnant) after := by
  induction before generalizing stagnant with
  | nil => rfl
  | cons p before ih =>
    have hlast : (((p :: before).getLast?).map (·.stagnant)).getD stagnant =
        ((before.getLast?).map (·.stagnant)).getD p.stagnant := by
      rw [List.getLast?_cons]
      cases before.getLast? <;> rfl
    rw [hlast, List.cons_append, turns, turns]
    -- Either way the rest is told from the flag of this snapshot on.
    by_cases h : p.stagnant = stagnant
    · rw [if_pos h, if_pos h, ih, h]
    · rw [if_neg h, if_neg h, ih, List.cons_append]

/-- Beginnings and ends take turns. -/
theorem isBeginning_turns {i : Nat} {event : Event}
    (h : (turns config stagnant snapshots)[i]? = some event) :
    event.isBeginning = (stagnant ^^ decide (Even i)) := by
  induction snapshots generalizing stagnant i with
  | nil => cases h
  | cons p later ih =>
    rw [turns] at h
    by_cases hsame : p.stagnant = stagnant
    · rw [if_pos hsame] at h
      exact ih h
    · rw [if_neg hsame] at h
      have hother : p.stagnant = !stagnant := Bool.eq_not_of_ne hsame
      cases i with
      | zero =>
        obtain rfl := Option.some.inj h
        simp [Progress.isBeginning_turn, hother]
      | succ i =>
        -- The records after the first one begin the other way.
        rw [List.getElem?_cons_succ] at h
        rw [ih h, hother]
        by_cases hparity : Even i <;> simp [hparity, Nat.even_add_one]

theorem mem_turns {event : Event} (h : event ∈ turns config stagnant snapshots) :
    ∃ p ∈ snapshots, event = p.turn config := by
  induction snapshots generalizing stagnant with
  | nil => cases h
  | cons p later ih =>
    rw [turns] at h
    by_cases hsame : p.stagnant = stagnant
    · rw [if_pos hsame] at h
      rcases ih h with ⟨q, hq, hevent⟩
      exact ⟨q, List.mem_cons_of_mem p hq, hevent⟩
    · rw [if_neg hsame] at h
      rcases List.mem_cons.mp h with hevent | h
      · exact ⟨p, List.mem_cons_self, hevent⟩
      · rcases ih h with ⟨q, hq, hevent⟩
        exact ⟨q, List.mem_cons_of_mem p hq, hevent⟩

/-- Nothing is said of a generation that is not among the snapshots. -/
theorem countP_turns_eq_zero {generation : Nat} (h : ∀ p ∈ snapshots, p.generation ≠ generation) :
    (turns config stagnant snapshots).countP (·.isTurnOf generation) = 0 := by
  rw [List.countP_eq_zero]
  intro event hevent
  rcases mem_turns hevent with ⟨p, hp, rfl⟩
  rw [Progress.isTurnOf_turn, decide_eq_true_eq]
  exact h p hp

/-- A generation has a record of its own exactly if it is not as the one before it. -/
theorem countP_turns {before after : List Progress}
    (h : ((before ++ p :: after).map (·.generation)).Nodup) :
    (turns config stagnant (before ++ p :: after)).countP (·.isTurnOf p.generation) =
      if p.stagnant = (before.getLast?.map (·.stagnant)).getD stagnant then 0 else 1 := by
  rw [List.map_append, List.map_cons, List.nodup_append, List.nodup_cons] at h
  rcases h with ⟨-, ⟨hafter, -⟩, hbefore⟩
  have hearlier : ∀ q ∈ before, q.generation ≠ p.generation := by
    intro q hq
    exact hbefore _ (List.mem_map_of_mem hq) _ List.mem_cons_self
  have hlater : ∀ q ∈ after, q.generation ≠ p.generation := by
    intro q hq hsame
    rw [← hsame] at hafter
    exact hafter (List.mem_map_of_mem hq)
  -- The snapshots before and after this one are of other generations.
  rw [turns_append, List.countP_append, countP_turns_eq_zero hearlier, turns]
  split
  · rw [countP_turns_eq_zero hlater]
  · rw [List.countP_cons, countP_turns_eq_zero hlater, Progress.isTurnOf_turn]
    simp

end

/-! ## Short stagnation -/

namespace Stagnation

/-- Whether a search that is not stagnant has been flat for fewer generations than make it so. -/
def IsShort (s : Stagnation) : Prop :=
  s.isStagnant = false → s.flatGenerations < max s.threshold 1

theorem isShort_start (threshold : Nat) : (start threshold).IsShort := by
  intro _
  show 0 < max threshold 1
  omega

theorem threshold_observe (s : Stagnation) (best : Charge) :
    (s.observe best).threshold = s.threshold := by
  unfold observe
  split <;> rfl

/-- After an observation a search that is not stagnant is still short of the threshold, because it
would have become stagnant otherwise. -/
theorem isShort_observe (s : Stagnation) (best : Charge) : (s.observe best).IsShort := by
  unfold observe
  -- The counter goes up by one, and the flag is raised in the same observation if that is enough;
  -- or both begin anew.
  by_cases hflat : s.lastBest = some best
  · rw [if_pos hflat]
    intro hstays
    rcases Bool.or_eq_false_iff.mp hstays with ⟨-, hbelow⟩
    have hlt : s.flatGenerations + 1 < s.threshold := by simpa using hbelow
    show s.flatGenerations + 1 < max s.threshold 1
    omega
  · rw [if_neg hflat]
    exact isShort_start s.threshold

/-- When stagnation begins, it has come to the threshold, or to one if there is none. -/
theorem flatGenerations_of_begun {s : Stagnation} {best : Charge} (h : s.IsShort)
    (hbefore : s.isStagnant = false) (hafter : (s.observe best).isStagnant = true) :
    (s.observe best).flatGenerations = max s.threshold 1 := by
  have hshort : s.flatGenerations < max s.threshold 1 := h hbefore
  unfold observe at hafter ⊢
  by_cases hflat : s.lastBest = some best
  · rw [if_pos hflat] at hafter ⊢
    have hreached : s.threshold ≤ s.flatGenerations + 1 := by simpa [hbefore] using hafter
    show s.flatGenerations + 1 = max s.threshold 1
    omega
  · rw [if_neg hflat] at hafter
    cases hafter

end Stagnation

variable {σ : Type}

/-! ## What a step logs -/

section

variable {clock : Clock} {monitor : Monitor} {e : Engine σ} {generation : Nat}
  {before after : Stagnation}

/-- The record of a scored generation tells neither of stagnation nor of an end. -/
theorem Engine.neutral_generationEvent? {size : Nat} {evaluation : Evaluation} {event : Event}
    (h : e.generationEvent? clock size evaluation = some event) :
    event.isTurn = false ∧ event.isEnding = false := by
  rcases Option.bind_eq_some_iff.mp h with ⟨best, -, h⟩
  rcases Option.bind_eq_some_iff.mp h with ⟨pair, -, h⟩
  split at h <;> cases h <;> constructor <;> rfl

/-- What is logged of stagnation is a turn and no end, and it is worth an informational record. -/
theorem Engine.isTurn_of_stagnationEvent? {event : Event}
    (h : stagnationEvent? generation before after = some event) :
    event.isTurn = true ∧ event.isEnding = false ∧ event.level = .info := by
  unfold stagnationEvent? at h
  split_ifs at h <;> cases h <;> refine ⟨rfl, rfl, rfl⟩

end

namespace State

section

variable {monitor : Monitor} {event : Option Event} {s : State σ}

/-- Nothing comes into the log but what is logged. -/
theorem mem_events_log {logged : Event} (h : logged ∈ (s.log monitor event).events) :
    event = some logged ∨ logged ∈ s.events := by
  rcases List.mem_append.mp h with hnew | hold
  · left
    rw [Option.mem_toList, Option.filter_eq_some_iff] at hnew
    exact hnew.1
  · exact .inr hold

/-- A log that keeps informational records keeps this one, in front of the others. -/
theorem events_log_of_info {logged : Event} (hlog : monitor.log.admits .info = true)
    (hlevel : logged.level = .info) :
    (s.log monitor (some logged)).events = logged :: s.events := by
  have hkept : (some logged).filter (monitor.log.admits ·.level) = some logged := by
    rw [Option.filter_eq_some_iff, hlevel, hlog]
    exact ⟨rfl, rfl⟩
  show ((some logged).filter _).toList ++ s.events = _
  rw [hkept]
  rfl

/-- A record that is no turn adds nothing to the turns, whether it is kept or not. -/
theorem turns_log (h : ∀ logged, event = some logged → logged.isTurn = false) :
    (s.log monitor event).events.filter (·.isTurn) = s.events.filter (·.isTurn) := by
  show (_ ++ s.events).filter _ = _
  rw [List.filter_append, List.filter_eq_nil_iff.mpr, List.nil_append]
  intro logged hlogged
  rw [Option.mem_toList, Option.filter_eq_some_iff] at hlogged
  simp [h logged hlogged.1]

/-- A record of a turn is kept where informational records are. -/
theorem turns_log_of_isTurn (hlog : monitor.log.admits .info = true)
    (h : ∀ logged, event = some logged → logged.isTurn = true ∧ logged.level = .info) :
    (s.log monitor event).events.filter (·.isTurn) =
      event.toList ++ s.events.filter (·.isTurn) := by
  cases event with
  | none => rfl
  | some logged =>
    rcases h logged rfl with ⟨hturn, hlevel⟩
    rw [events_log_of_info hlog hlevel, List.filter_cons_of_pos hturn]
    rfl

/-- A generation is taken note of by its best cost, or not at all. -/
theorem stagnationAfter_cases (clock : Clock) (s : State σ) :
    s.stagnationAfter clock = s.engine.stagnation ∨
      ∃ best, s.stagnationAfter clock = s.engine.stagnation.observe best := by
  unfold stagnationAfter
  split
  · exact .inr ⟨_, rfl⟩
  · exact .inl rfl

end

variable [RandomSource σ] {clock : Clock} {monitor : Monitor} {e : Engine σ} {s t : State σ}

/-- A step that goes on logs that stagnation begins or ends, if it does. -/
theorem turns_next (hlog : monitor.log.admits .info = true)
    (hstep : s.step clock monitor = .next t) :
    t.events.filter (·.isTurn) =
      (Engine.stagnationEvent? s.engine.generation s.engine.stagnation
        (s.stagnationAfter clock)).toList ++ s.events.filter (·.isTurn) := by
  unfold stagnationAfter
  cases stepsTo_of_step hstep with
  | allInvalid _ _ _ hbest =>
    have hsame : Engine.stagnationEvent? s.engine.generation s.engine.stagnation
        s.engine.stagnation = none := by
      simp [Engine.stagnationEvent?]
    rw [hbest, hsame]
    apply turns_log
    intro logged hlogged
    cases hlogged
    rfl
  | @bred best event _ _ _ hbest hevent =>
    have hscored : ((s.observe monitor best).log monitor event).events.filter (·.isTurn) =
        (s.observe monitor best).events.filter (·.isTurn) := by
      apply turns_log
      intro logged hlogged
      rw [hevent] at hlogged
      exact (Engine.neutral_generationEvent? hlogged).1
    rw [hbest]
    refine hscored.trans (turns_log_of_isTurn hlog ?_)
    intro logged hlogged
    rcases Engine.isTurn_of_stagnationEvent? hlogged with ⟨hturn, -, hlevel⟩
    exact ⟨hturn, hlevel⟩

/-- It does not log an end. -/
theorem endings_next (hs : ∀ event ∈ s.events, event.isEnding = false)
    (hstep : s.step clock monitor = .next t) : ∀ event ∈ t.events, event.isEnding = false := by
  intro event hevent
  cases stepsTo_of_step hstep with
  | allInvalid _ _ _ _ =>
    rcases mem_events_log hevent with hlogged | hold
    · cases hlogged
      rfl
    · exact hs event hold
  | bred _ _ _ _ hscored =>
    rcases mem_events_log hevent with hlogged | hevent
    · rw [hscored] at hlogged
      exact (Engine.neutral_generationEvent? hlogged).2
    · rcases mem_events_log hevent with hlogged | hold
      · exact (Engine.isTurn_of_stagnationEvent? hlogged).2.1
      · exact hs event hold

/-! ## Stagnation along a search -/

/-- A search keeps its threshold, and it is stagnant as soon as it has come to it. -/
theorem Reachable.short (hs : Reachable clock monitor e s) :
    s.engine.stagnation.IsShort ∧
      s.engine.stagnation.threshold = e.config.evolve.stagnationGenerations.toNat := by
  induction hs with
  | start => exact ⟨Stagnation.isShort_start _, rfl⟩
  | @next s t _ hstep ih =>
    rw [(next_snapshot hstep).1]
    rcases stagnationAfter_cases clock s with hsame | ⟨best, hobserved⟩
    · rw [hsame]
      exact ih
    · rw [hobserved, Stagnation.threshold_observe]
      exact ⟨Stagnation.isShort_observe _ best, ih.2⟩

/-- What is logged of a generation is what its snapshot tells. -/
theorem Reachable.turns_of_next {p : Progress} (hs : Reachable clock monitor e s)
    (hgeneration : p.generation = s.engine.generation)
    (hstagnant : p.stagnant = (s.stagnationAfter clock).isStagnant) :
    (Engine.stagnationEvent? s.engine.generation s.engine.stagnation
      (s.stagnationAfter clock)).toList = turns e.config s.engine.stagnation.isStagnant [p] := by
  rw [turns, turns, turns, hstagnant]
  -- A record is written exactly if the flag changes, and which one it is depends on how it changes.
  by_cases hsame : (s.stagnationAfter clock).isStagnant = s.engine.stagnation.isStagnant
  · rw [if_pos hsame, Engine.stagnationEvent?, hsame]
    simp
  · rw [if_neg hsame]
    by_cases hbefore : s.engine.stagnation.isStagnant = true
    · have hafter : (s.stagnationAfter clock).isStagnant = false := by simpa [hbefore] using hsame
      simp [Engine.stagnationEvent?, Progress.turn, hbefore, hafter, hstagnant, hgeneration]
    · have hclear : s.engine.stagnation.isStagnant = false := Bool.eq_false_iff.mpr hbefore
      have hafter : (s.stagnationAfter clock).isStagnant = true := by simpa [hclear] using hsame
      have hflat : (s.stagnationAfter clock).flatGenerations =
          max e.config.evolve.stagnationGenerations.toNat 1 := by
        rcases stagnationAfter_cases clock s with hkept | ⟨best, hobserved⟩
        · rw [hkept] at hsame
          exact absurd rfl hsame
        · rw [hobserved] at hafter ⊢
          rw [← hs.short.2]
          exact Stagnation.flatGenerations_of_begun hs.short.1 hclear hafter
      simp [Engine.stagnationEvent?, Progress.turn, hclear, hafter, hstagnant, hgeneration, hflat]

/-- Before a generation, the log tells of stagnation what the snapshots tell of it. -/
theorem Reachable.turns_eq (hlog : monitor.log.admits .info = true)
    (hs : Reachable clock monitor e s) :
    s.events.reverse.filter (·.isTurn) =
      turns e.config false (TapeBreeder.evaluations s.snapshots.reverse) := by
  induction hs with
  | start => rfl
  | @next s t hs hstep ih =>
    rcases next_snapshot hstep with ⟨-, p, hsnapshots, hphase, htells, -, hstagnant⟩
    have hturn := hs.turns_of_next htells.generation hstagnant
    rw [hs.history.stagnant, lastStagnant] at hturn
    -- There is at most one record, so that its place in the order does not matter.
    have hone : ∀ event : Option Event, event.toList.reverse = event.toList := by
      intro event
      cases event <;> rfl
    rw [List.filter_reverse] at ih ⊢
    rw [turns_next hlog hstep, hsnapshots, List.reverse_cons, evaluations_concat hphase,
      turns_append, ← ih, ← hturn, List.reverse_append, hone]

/-- Before a generation, each earlier one has been gone on from once. -/
theorem Reachable.generations (hs : Reachable clock monitor e s) :
    (TapeBreeder.evaluations s.snapshots.reverse).map (·.generation) =
      List.range s.engine.generation := by
  induction hs with
  | start => rfl
  | next hs hstep ih =>
    rcases next_snapshot hstep with ⟨-, p, hsnapshots, hphase, htells, -⟩
    rw [hsnapshots, List.reverse_cons, evaluations_concat hphase, List.map_append, ih,
      generation_next hstep, List.range_succ, List.map_singleton, htells.generation]

/-- Nothing that is logged before the end of a search tells of an end. -/
theorem Reachable.endings (hs : Reachable clock monitor e s) :
    ∀ event ∈ s.events, event.isEnding = false := by
  induction hs with
  | start =>
    intro event hevent
    cases hevent
  | next _ hstep ih => exact endings_next ih hstep

end State

/-! ## Whole searches -/

/-- Whether a record of an end, a last snapshot and a result tell of the same end: a program that
has been found, a limit that has been reached, or a cancellation, in the same generation. -/
inductive Event.Ends (last : Progress) : Event → Except SearchError Report → Prop where
  | found {report : Report} (hphase : last.phase = .complete)
      (hgeneration : report.generation = last.generation) :
    Ends last (.found last.generation) (.ok report)
  | limitReached (hphase : last.phase = .stopped)
      (hlimit : last.generationLimit.map UInt64.toNat = some last.generation) :
    Ends last (.limitReached last.generation) (.error (.exhausted last.generation))
  | cancelled (hphase : last.phase = .stopped) :
    Ends last (.cancelled last.generation) (.error .cancelled)

theorem Event.Ends.phase_ne {ending : Event} {last : Progress} {result : Except SearchError Report}
    (h : ending.Ends last result) : last.phase ≠ .evaluating := by
  cases h <;> simp_all

/-- The record of an end is not one of stagnation, so the two kinds can be counted apart. -/
theorem Event.Ends.isEnding {ending : Event} {last : Progress} {result : Except SearchError Report}
    (h : ending.Ends last result) : ending.isEnding = true ∧ ending.isTurn = false := by
  cases h <;> simp [Event.isEnding, Event.isTurn]

/-- What a log tells of stagnation, by the snapshots. Its records of stagnation are those that the
snapshots call for: they begin and end it in turn, a beginning tells the threshold, or one if that
is zero, and a generation that is gone on from has exactly one record of its own if it is stagnant
and the one before it was not, or the other way round, and has none otherwise. -/
structure RecordsFollow (config : RunConfig) (snapshots : List Progress) (events : List Event) :
    Prop where
  turns : events.filter (·.isTurn) = turns config false (evaluations snapshots)
  alternate : ∀ (i : Nat) (event : Event), (events.filter (·.isTurn))[i]? = some event →
    (event.isBeginning = true ↔ Even i)
  flat : ∀ generation flat, Event.stagnationBegun generation flat ∈ events →
    flat = max config.evolve.stagnationGenerations.toNat 1
  turned : ∀ before p after, snapshots = before ++ p :: after → p.phase = .evaluating →
    events.countP (·.isTurnOf p.generation) = if p.stagnant = lastStagnant before then 0 else 1

theorem evaluations_append_cons {before after : List Progress} {p : Progress}
    (h : p.phase = .evaluating) :
    evaluations (before ++ p :: after) = evaluations before ++ p :: evaluations after := by
  simp [evaluations, h]

theorem evaluations_concat_of_ne {snapshots : List Progress} {p : Progress}
    (h : p.phase ≠ .evaluating) : evaluations (snapshots ++ [p]) = evaluations snapshots := by
  simp [evaluations, h]

/-- All that is said of records follows from which ones there are. The generations are counted up,
so no two snapshots call for records of the same one. -/
theorem recordsFollow_of_turns {config : RunConfig} {snapshots : List Progress}
    {events : List Event}
    (hturns : events.filter (·.isTurn) = turns config false (evaluations snapshots))
    (hgenerations : ((evaluations snapshots).map (·.generation)).Nodup) :
    RecordsFollow config snapshots events := by
  refine ⟨hturns, ?_, ?_, ?_⟩
  · intro i event hevent
    rw [hturns] at hevent
    rw [isBeginning_turns hevent]
    simp
  · intro generation flat hevent
    have hkept : Event.stagnationBegun generation flat ∈ events.filter (·.isTurn) :=
      List.mem_filter.mpr ⟨hevent, rfl⟩
    rw [hturns] at hkept
    rcases mem_turns hkept with ⟨p, -, hturn⟩
    unfold Progress.turn at hturn
    split at hturn
    · cases hturn
      rfl
    · cases hturn
  · rintro before p after rfl hphase
    have hfiltered : events.countP (·.isTurnOf p.generation) =
        (events.filter (·.isTurn)).countP (·.isTurnOf p.generation) := by
      rw [List.countP_filter]
      apply List.countP_congr
      intro event _
      simp only [Bool.and_eq_true, iff_self_and]
      exact Event.isTurn_of_isTurnOf
    rw [evaluations_append_cons hphase] at hturns hgenerations
    rw [hfiltered, hturns, countP_turns hgenerations, lastStagnant]

variable [RandomSource σ]

namespace State

variable {clock : Clock} {monitor : Monitor} {e : Engine σ} {s t : State σ}

/-- The end of a search has one record, which is kept, and it fits the last snapshot. -/
theorem Reachable.exists_ends {result : Except SearchError Report}
    (hlog : monitor.log.admits .info = true) (hs : Reachable clock monitor e s)
    (hstep : s.step clock monitor = .finished t result) :
    ∃ ending last, t.events = ending :: s.events ∧ t.snapshots = last :: s.snapshots ∧
      ending.Ends last result := by
  cases stepsTo_of_step hstep with
  | cancelled _ => exact ⟨_, _, events_log_of_info hlog rfl, rfl, .cancelled rfl⟩
  | @limitReached limit _ hlimit =>
    rcases Engine.reachedLimit?_eq_some_iff.mp hlimit with ⟨hset, hle⟩
    rcases Option.map_eq_some_iff.mp hset with ⟨set, hsome, rfl⟩
    -- The generation has not passed the limit, so it is the limit.
    have hat : s.engine.generation = set.toNat := by
      rw [hs.carried.1] at hsome
      exact Nat.le_antisymm (hs.generation_le hsome) hle
    rw [← hat] at hset ⊢
    exact ⟨_, _, events_log_of_info hlog rfl, rfl, .limitReached rfl hset⟩
  | found _ _ _ => exact ⟨_, _, events_log_of_info hlog rfl, rfl, .found rfl rfl⟩

/-- The end of a search is no generation that it goes on from, and its record is no turn. -/
theorem Visits.recordsFollow (hlog : monitor.log.admits .info = true)
    (ht : Visits clock monitor e t) :
    RecordsFollow e.config t.snapshots.reverse t.events.reverse := by
  cases ht with
  | between ht =>
    apply recordsFollow_of_turns (ht.turns_eq hlog)
    rw [ht.generations]
    exact List.nodup_range
  | last hs hstep =>
    rcases hs.exists_ends hlog hstep with ⟨ending, last, hevents, hsnapshots, hends⟩
    apply recordsFollow_of_turns
    · rw [hevents, hsnapshots, List.reverse_cons, List.reverse_cons, List.filter_append,
        hs.turns_eq hlog, evaluations_concat_of_ne hends.phase_ne, List.filter_singleton,
        hends.isEnding.2]
      exact List.append_nil _
    · rw [hsnapshots, List.reverse_cons, evaluations_concat_of_ne hends.phase_ne, hs.generations]
      exact List.nodup_range

end State

/-- The log and the snapshots of a search that keeps informational records tell the same story.
Through the whole search, the records that stagnation begins or ends are those that the snapshots
call for. There is no record of an end before the end, and a run that comes to its end has exactly
one, which fits its last snapshot and its result. -/
theorem records_follow_snapshots {clock : Clock} {monitor : Monitor} {e : Engine σ}
    (hlog : monitor.log.admits .info = true) :
    (∀ t, State.Visits clock monitor e t →
      RecordsFollow e.config t.snapshots.reverse t.events.reverse) ∧
    (∀ s, State.Reachable clock monitor e s → ∀ event ∈ s.events, event.isEnding = false) ∧
    ∀ rounds r, e.run clock monitor rounds = some r →
      RecordsFollow e.config r.snapshots r.events ∧
      ∃ ending last, r.events.filter (·.isEnding) = [ending] ∧
        r.snapshots.getLast? = some last ∧ ending.Ends last r.result := by
  refine ⟨?_, ?_, ?_⟩
  · intro t ht
    exact ht.recordsFollow hlog
  · intro s hs
    exact hs.endings
  · intro rounds r hrun
    rcases Engine.run_eq_some_iff.mp hrun with ⟨s, t, result, hs, -, hstep, rfl⟩
    refine ⟨(State.Visits.last hs hstep).recordsFollow hlog, ?_⟩
    rcases hs.exists_ends hlog hstep with ⟨ending, last, hevents, hsnapshots, hends⟩
    refine ⟨ending, last, ?_, ?_, hends⟩
    · -- All the records before it are others.
      have hothers : s.events.filter (·.isEnding) = [] := by
        rw [List.filter_eq_nil_iff]
        intro event hevent
        exact Bool.eq_false_iff.mp (hs.endings event hevent)
      rw [List.filter_reverse, hevents, List.filter_cons_of_pos hends.isEnding.1, hothers]
      rfl
    · rw [hsnapshots, List.reverse_cons, List.getLast?_concat]

/-- A search whose log is kept becomes stagnant in its third generation, which has a record of its
own; the second generation has none. A run that finds a program has one record of its end, of the
generation that it reports. -/
theorem records_follow_snapshots_split_and_echo :
    (∃ t p₂ p₃, State.Visits .steady (.passive (some .info)) Engine.split t ∧
      p₂ ∈ t.snapshots ∧ p₃ ∈ t.snapshots ∧ p₂.stagnant = false ∧ p₃.stagnant = true ∧
      t.events.reverse.countP (·.isTurnOf p₂.generation) = 0 ∧
      t.events.reverse.countP (·.isTurnOf p₃.generation) = 1) ∧
    ∃ r report, FreeDraw.echo.engine.run .steady (.passive (some .info)) 1 = some r ∧
      r.result = .ok report ∧ r.events.filter (·.isEnding) = [.found report.generation] := by
  have hlog : (Monitor.passive (some .info)).log.admits .info = true := by decide
  constructor
  · rcases Engine.exists_visits_split with ⟨u, p₀, p₁, p₂, p₃, p₄, hu, hsnapshots, hphase₀,
      ⟨hphase₁, hbest₁⟩, ⟨hphase₂, hbest₂⟩, ⟨hphase₃, hbest₃⟩, -⟩
    have hlogged : ∃ t, State.Visits .steady (.passive (some .info)) Engine.split t ∧
        u.mute = t.mute := hu.exists_mute_eq rfl fun _ _ _ _ _ => rfl
    rcases hlogged with ⟨t, ht, hmute⟩
    have hsame : u.snapshots = t.snapshots := congrArg (·.snapshots) hmute
    rw [hsame] at hsnapshots
    have hmem : ∀ p ∈ [p₀, p₁, p₂, p₃, p₄], p ∈ t.snapshots := by
      intro p hp
      rw [← hsnapshots] at hp
      exact List.mem_reverse.mp hp
    have hfollows := ht.follows
    have hrecords := (records_follow_snapshots hlog).1 t ht
    rw [hsnapshots] at hfollows hrecords
    -- The second of the two equal costs makes the search stagnant.
    have hcosts₁ : observedCosts [p₀, p₁] = [99] := by
      simp [observedCosts, evaluations, hphase₀, hphase₁, hbest₁]
    have hcosts₂ : observedCosts [p₀, p₁, p₂] = [99] := by
      simp [observedCosts, evaluations, hphase₀, hphase₁, hbest₁, hphase₂, hbest₂]
    have hcosts₃ : observedCosts [p₀, p₁, p₂, p₃] = [99, 99] := by
      simp [observedCosts, evaluations, hphase₀, hphase₁, hbest₁, hphase₂, hbest₂, hphase₃, hbest₃]
    have hstagnant₁ : p₁.stagnant = (observed Engine.split.config [p₀, p₁]).isStagnant :=
      (hfollows 1 p₁ rfl).stagnant hphase₁
    have hstagnant₂ : p₂.stagnant = (observed Engine.split.config [p₀, p₁, p₂]).isStagnant :=
      (hfollows 2 p₂ rfl).stagnant hphase₂
    have hstagnant₃ : p₃.stagnant = (observed Engine.split.config [p₀, p₁, p₂, p₃]).isStagnant :=
      (hfollows 3 p₃ rfl).stagnant hphase₃
    rw [observed, hcosts₁] at hstagnant₁
    rw [observed, hcosts₂] at hstagnant₂
    rw [observed, hcosts₃] at hstagnant₃
    have hlast₁ : lastStagnant ([p₀] ++ [p₁]) = false := by
      rw [lastStagnant_concat hphase₁, hstagnant₁]
      rfl
    have hlast₂ : lastStagnant ([p₀, p₁] ++ [p₂]) = false := by
      rw [lastStagnant_concat hphase₂, hstagnant₂]
      rfl
    refine ⟨t, p₂, p₃, ht, hmem p₂ (by simp), hmem p₃ (by simp), hstagnant₂, hstagnant₃, ?_, ?_⟩
    · have hnone := hrecords.turned ([p₀] ++ [p₁]) p₂ [p₃, p₄] rfl hphase₂
      rwa [hlast₁, hstagnant₂] at hnone
    · have hone := hrecords.turned ([p₀, p₁] ++ [p₂]) p₃ [p₄] rfl hphase₃
      rwa [hlast₂, hstagnant₃] at hone
  · rcases FreeDraw.echo.exists_run with ⟨r, report, hrun, hresult, -⟩
    have hlogged : ∃ r', FreeDraw.echo.engine.run .steady (.passive (some .info)) 1 = some r' ∧
        r.Agrees r' := Engine.exists_agreeing_run rfl (fun _ _ _ _ _ => rfl) hrun
    rcases hlogged with ⟨r', hrun', hagree⟩
    rcases hagree.exists_report hresult with ⟨report', hresult', -⟩
    rcases ((records_follow_snapshots hlog).2.2 1 r' hrun').2 with ⟨ending, last, hone, -, hends⟩
    rw [hresult'] at hends
    cases hends with
    | found _ hgeneration =>
      rw [← hgeneration] at hone
      exact ⟨r', report', hrun', hresult', hone⟩

end TapeBreeder
