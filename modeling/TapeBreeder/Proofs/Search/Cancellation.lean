import Mathlib.Logic.Relation
import TapeBreeder.Proofs.Search.Runs
import TapeBreeder.Proofs.Search.Snapshots

/-!
# Cancelling a search

Whoever watches a search may set its cancellation flag when a snapshot is taken, and nothing ever
clears it. The flag is looked at before each generation, ahead of everything else, and nowhere
else. Up to the snapshot that sets it the search is the one that nobody watches; after it, the
search stops before anything more is scored.

* `State.FlagFollows` — when the flag is set: at the beginning, or at a snapshot that was taken. It
  does so in every visited state (`State.Visits.flagFollows`).
* `State.Reachable.exists_run_of_cancelled` — a search with its flag set takes one more snapshot.
* `State.Reachable.passive`, `State.Reachable.exists_run_unwatched` — with a clear flag it is as
  good as unwatched.
* `Engine.LeavesBehind` — what becomes of an engine by running it.
* `run_cancelled` — what comes of a run, by the snapshot that sets its flag.
-/

namespace TapeBreeder

/-! ## Who sets the flag -/

namespace Monitor

/-- Whether a search is cancelled at any of its snapshots. -/
def hasCancelled (monitor : Monitor) : List Progress → Bool
  | [] => false
  | p :: earlier => monitor.cancels (p :: earlier) || monitor.hasCancelled earlier

/-- Whether a search that has taken some snapshots is first cancelled at the next one. -/
def CancelsFirst (monitor : Monitor) (p : Progress) (earlier : List Progress) : Prop :=
  monitor.hasCancelled earlier = false ∧ monitor.cancels (p :: earlier) = true

theorem hasCancelled_passive (log : LogFilter) (snapshots : List Progress) :
    (passive log).hasCancelled snapshots = false := by
  induction snapshots with
  | nil => rfl
  | cons p earlier ih => exact ih

theorem CancelsFirst.hasCancelled {monitor : Monitor} {p : Progress} {earlier : List Progress}
    (h : monitor.CancelsFirst p earlier) : monitor.hasCancelled (p :: earlier) = true := by
  rw [Monitor.hasCancelled, h.2, Bool.true_or]

end Monitor

variable {σ : Type}

/-- The flag of a state is set if it was set at the beginning or at a snapshot. -/
def State.FlagFollows (monitor : Monitor) (e : Engine σ) (s : State σ) : Prop :=
  s.engine.cancelled = (e.cancelled || monitor.hasCancelled s.snapshots)

/-- A snapshot sets the flag if whoever watches cancels the search, and leaves it alone if not. -/
theorem State.FlagFollows.snapshot {monitor : Monitor} {e : Engine σ} {s : State σ}
    (h : s.FlagFollows monitor e) (evaluation : Option Evaluation) (phase : Phase) :
    (s.snapshot monitor evaluation phase).FlagFollows monitor e := by
  unfold FlagFollows at h ⊢
  show (s.engine.cancelled || monitor.cancels _) = (e.cancelled || (monitor.cancels _ || _))
  rw [h, Bool.or_assoc, Bool.or_comm (monitor.hasCancelled _)]

/-- A snapshot at which nobody cancels the search is one that nobody watches. -/
theorem State.snapshot_passive {monitor : Monitor} {evaluation : Option Evaluation} {phase : Phase}
    {s : State σ} (hclear : (s.snapshot monitor evaluation phase).engine.cancelled = false) :
    s.snapshot (.passive monitor.log) evaluation phase = s.snapshot monitor evaluation phase := by
  rw [engine_snapshot] at hclear
  rcases Bool.or_eq_false_iff.mp hclear with ⟨-, hwatched⟩
  unfold snapshot
  simp only [hwatched]
  rfl

variable [RandomSource σ] {clock : Clock} {monitor : Monitor} {e : Engine σ}

namespace State

variable {s t : State σ} {result : Except SearchError Report}

/-! ## The flag of a state -/

/-- The first snapshot is taken when the search starts, and it may cancel the search already. -/
theorem flagFollows_start (monitor : Monitor) (e : Engine σ) :
    (start monitor e).FlagFollows monitor e := by
  show (e.cancelled || monitor.cancels _) = (e.cancelled || (monitor.cancels _ || false))
  rw [Bool.or_false]

/-- A step that goes on takes one snapshot, and nothing else in it sets the flag. -/
theorem FlagFollows.next (h : s.FlagFollows monitor e) (hstep : s.step clock monitor = .next t) :
    t.FlagFollows monitor e := by
  cases stepsTo_of_step hstep with
  | allInvalid _ _ _ _ => exact h.snapshot (s := s.log monitor _) _ _
  | bred _ _ _ _ _ => exact h.snapshot (s := (s.observe monitor _).log monitor _) _ _

theorem FlagFollows.finished (h : s.FlagFollows monitor e)
    (hstep : s.step clock monitor = .finished t result) : t.FlagFollows monitor e := by
  cases stepsTo_of_step hstep <;> exact h.snapshot (s := s.log monitor _) _ _

/-- Along a search the flag is that of the beginning or of some snapshot: it is never cleared. -/
theorem Reachable.flagFollows (hs : Reachable clock monitor e s) : s.FlagFollows monitor e := by
  induction hs with
  | start => exact flagFollows_start monitor e
  | next _ hstep ih => exact ih.next hstep

theorem Visits.flagFollows (hs : Visits clock monitor e s) : s.FlagFollows monitor e := by
  cases hs with
  | between hs => exact hs.flagFollows
  | last hs hstep => exact hs.flagFollows.finished hstep

/-- Where nobody cancels it, a search keeps its flag clear. -/
theorem Reachable.cancelled_passive {log : LogFilter} (hs : Reachable clock (.passive log) e s)
    (hclear : e.cancelled = false) : s.engine.cancelled = false := by
  have hflag : s.engine.cancelled = (e.cancelled || (Monitor.passive log).hasCancelled _) :=
    hs.flagFollows
  rw [hflag, hclear, Monitor.hasCancelled_passive]
  rfl

/-! ## With the flag set -/

/-- A search with its flag set takes one more snapshot and is over. -/
theorem Reachable.exists_run_of_cancelled {rounds : Nat} (hs : Reachable clock monitor e s)
    (hcancelled : s.engine.cancelled = true) (hrounds : s.engine.generation < rounds) :
    ∃ r last, e.run clock monitor rounds = some r ∧ r.result = .error .cancelled ∧
      r.snapshots = s.snapshots.reverse ++ [last] ∧
      last.stamp = (.stopped, s.engine.generation) := by
  have hstep : s.step clock monitor = _ := (StepsTo.cancelled hcancelled).step_eq
  exact ⟨_, _, Engine.run_eq_some_iff.mpr ⟨s, _, _, hs, hrounds, hstep, rfl⟩, rfl,
    List.reverse_cons, rfl⟩

theorem evaluations_of_cancelled (hcancelled : s.engine.cancelled = true) (rounds : Nat) :
    s.evaluations clock monitor rounds = 0 := by
  cases rounds with
  | zero => rfl
  | succ rounds =>
    have hstep : s.step clock monitor = _ := (StepsTo.cancelled hcancelled).step_eq
    rw [evaluations, hstep, scores, hcancelled]
    rfl

/-! ## With the flag clear -/

/-- A search that goes on with its flag clear goes on in the same way when nobody watches it. -/
theorem next_passive (hstep : s.step clock monitor = .next t)
    (hclear : t.engine.cancelled = false) :
    s.engine.cancelled = false ∧ s.step clock (.passive monitor.log) = .next t := by
  cases stepsTo_of_step hstep with
  | allInvalid hcancelled hlimit hwinner hbest =>
    refine ⟨hcancelled, ?_⟩
    rw [engine_advance] at hclear
    rw [← snapshot_passive hclear]
    have hinvalid : StepsTo clock (.passive monitor.log) s _ :=
      .allInvalid hcancelled hlimit hwinner hbest
    exact hinvalid.step_eq
  | bred hcancelled hlimit hwinner hbest hevent =>
    refine ⟨hcancelled, ?_⟩
    rw [engine_advance] at hclear
    rw [← snapshot_passive hclear]
    have hbred : StepsTo clock (.passive monitor.log) s _ :=
      .bred hcancelled hlimit hwinner hbest hevent
    exact hbred.step_eq

/-- So does one that ends: that the flag is set at its last snapshot makes no difference to it. -/
theorem finished_passive (hclear : s.engine.cancelled = false)
    (hstep : s.step clock monitor = .finished t result) :
    ∃ u, s.step clock (.passive monitor.log) = .finished u result ∧ u.snapshots = t.snapshots ∧
      u.events = t.events := by
  cases stepsTo_of_step hstep with
  | cancelled hcancelled =>
    rw [hclear] at hcancelled
    cases hcancelled
  | limitReached _ hlimit =>
    exact ⟨_, (StepsTo.limitReached hclear hlimit).step_eq, rfl, rfl⟩
  | found _ hlimit hwinner => exact ⟨_, (StepsTo.found hclear hlimit hwinner).step_eq, rfl, rfl⟩

/-- As long as its flag is clear, a search is where it would be if nobody watched it. -/
theorem Reachable.passive (hs : Reachable clock monitor e s)
    (hclear : s.engine.cancelled = false) : Reachable clock (.passive monitor.log) e s := by
  induction hs with
  | start =>
    have hstart : State.start (.passive monitor.log) e = State.start monitor e :=
      snapshot_passive hclear
    rw [← hstart]
    exact .start
  | next _ hstep ih =>
    rcases next_passive hstep hclear with ⟨hbefore, hnext⟩
    exact (ih hbefore).next hnext

/-- A search whose flag is clear before its end comes to the end that it would have come to with
nobody watching. -/
theorem Reachable.exists_run_unwatched {rounds : Nat} (hs : Reachable clock monitor e s)
    (hclear : s.engine.cancelled = false) (hstep : s.step clock monitor = .finished t result)
    (hrounds : s.engine.generation < rounds) :
    ∃ r unwatched, e.run clock monitor rounds = some r ∧
      e.run clock (.passive monitor.log) rounds = some unwatched ∧
      r.result = unwatched.result ∧ r.snapshots = unwatched.snapshots ∧
      r.events = unwatched.events ∧ r.snapshots = t.snapshots.reverse := by
  rcases finished_passive hclear hstep with ⟨u, hunwatched, hsnapshots, hevents⟩
  refine ⟨_, _, Engine.run_eq_some_iff.mpr ⟨s, t, result, hs, hrounds, hstep, rfl⟩,
    Engine.run_eq_some_iff.mpr ⟨s, u, result, hs.passive hclear, hrounds, hunwatched, rfl⟩, rfl,
    ?_, ?_, rfl⟩
  · rw [hsnapshots]
  · rw [hevents]

/-! ## Where a search stands -/

/-- The newest snapshot tells whether a search has just begun, goes on or is over. -/
theorem Visits.newest {p : Progress} {earlier : List Progress} (hs : Visits clock monitor e s)
    (h : s.snapshots = p :: earlier) :
    (p.phase = .initializing ∧ s = start monitor e) ∨
    (p.phase = .evaluating ∧ Reachable clock monitor e s ∧
      s.engine.generation = p.generation + 1) ∨
    ((p.phase = .complete ∨ p.phase = .stopped) ∧ ∃ before result,
      Reachable clock monitor e before ∧ before.step clock monitor = .finished s result ∧
      before.engine.generation = p.generation ∧ before.snapshots = earlier) := by
  cases hs with
  | between hs =>
    cases hs with
    | start =>
      cases h
      exact .inl ⟨rfl, rfl⟩
    | next hbefore hstep =>
      have hs := hbefore.next hstep
      -- A step that goes on takes its snapshot of the generation that it has scored and counts up.
      cases stepsTo_of_step hstep with
      | allInvalid _ _ _ _ =>
        cases h
        exact .inr (.inl ⟨rfl, hs, rfl⟩)
      | bred _ _ _ _ _ =>
        cases h
        exact .inr (.inl ⟨rfl, hs, rfl⟩)
  | last hbefore hstep =>
    refine .inr (.inr ?_)
    cases stepsTo_of_step hstep with
    | cancelled _ =>
      cases h
      exact ⟨.inr rfl, _, _, hbefore, hstep, rfl, rfl⟩
    | limitReached _ _ =>
      cases h
      exact ⟨.inr rfl, _, _, hbefore, hstep, rfl, rfl⟩
    | found _ _ _ =>
      cases h
      exact ⟨.inl rfl, _, _, hbefore, hstep, rfl, rfl⟩

end State

/-! ## Engines -/

namespace Engine

/-- Whether a run of an engine is over before anything is scored: it ends cancelled, with a snapshot
of its first population and one of its end. -/
structure StopsAtOnce (clock : Clock) (monitor : Monitor) (e : Engine σ) : Prop where
  evaluations : ∀ rounds, e.evaluations clock monitor rounds = 0
  run : ∀ rounds, ∃ r, e.run clock monitor (rounds + 1) = some r ∧ r.result = .error .cancelled ∧
    r.snapshots.map Progress.stamp = [(.initializing, 0), (.stopped, 0)]

/-- A flag that is set at the first snapshot stops the search before its first generation. -/
theorem stopsAtOnce_of_start (h : (State.start monitor e).engine.cancelled = true) :
    e.StopsAtOnce clock monitor where
  evaluations := State.evaluations_of_cancelled h
  run rounds := by
    rcases State.Reachable.start.exists_run_of_cancelled h (Nat.succ_pos rounds) with
      ⟨r, last, hrun, hresult, hsnapshots, hlast⟩
    refine ⟨r, hrun, hresult, ?_⟩
    rw [hsnapshots, List.map_append, List.map_singleton, hlast]
    rfl

/-- A flag that was set before the run is still set at the first snapshot. -/
theorem stopsAtOnce_of_cancelled (h : e.cancelled = true) : e.StopsAtOnce clock monitor := by
  apply stopsAtOnce_of_start
  show (e.cancelled || monitor.cancels _) = true
  rw [h, Bool.true_or]

/-- Whether an engine is what a run of another one leaves behind. -/
def LeavesBehind (e e' : Engine σ) : Prop :=
  ∃ clock monitor rounds r, e.run clock monitor rounds = some r ∧ e' = r.engine

/-- A run leaves its engine with the flag that its last state had, so an engine that has been
cancelled stays so. -/
theorem Run.cancelled_eq {rounds : Nat} {r : Run σ} (h : e.run clock monitor rounds = some r) :
    r.engine.cancelled = (e.cancelled || monitor.hasCancelled r.snapshots.reverse) := by
  rcases run_eq_some_iff.mp h with ⟨s, t, result, hs, -, hstep, rfl⟩
  rw [List.reverse_reverse]
  exact hs.flagFollows.finished hstep

/-- A run that nobody cancels ends with a program or at its limit. -/
theorem Run.ok_or_exhausted {log : LogFilter} {rounds : Nat} {r : Run σ}
    (hclear : e.cancelled = false) (h : e.run clock (.passive log) rounds = some r) :
    (∃ report, r.result = .ok report) ∨
      ∃ limit, e.config.evolve.generationLimit = some limit ∧
        r.result = .error (.exhausted limit.toNat) := by
  have hstays : r.engine.cancelled = false := by
    rw [Run.cancelled_eq h, hclear, Monitor.hasCancelled_passive]
    rfl
  rcases Run.stamps h hstays with
    ⟨last, -, ⟨-, -, report, hresult, -⟩ | ⟨-, ⟨limit, hlimit, hreached⟩, hresult⟩⟩
  · exact .inl ⟨report, hresult⟩
  · rw [hreached] at hresult
    exact .inr ⟨limit, hlimit, hresult⟩

/-- The flag stays set through all runs of an engine. -/
theorem cancelled_of_leavesBehind {later : Engine σ} (hcancelled : e.cancelled = true)
    (h : Relation.ReflTransGen LeavesBehind e later) : later.cancelled = true := by
  induction h with
  | refl => exact hcancelled
  | tail _ hleaves ih =>
    rcases hleaves with ⟨clock, monitor, rounds, r, hrun, rfl⟩
    rw [Run.cancelled_eq hrun, ih, Bool.true_or]

end Engine

/-- What comes of a run, by the snapshot at which its cancellation flag is first set. If the flag is
set before the run or at its first snapshot, the run stops at once. If it is set when a generation
has been scored, whether any program of it was valid or not, the run ends cancelled with a snapshot
of the next generation, even if that one is the limit. If it is set at the last snapshot, the run is
the one that it would have been without. After that, whoever watches, every run of the engine stops
at once. -/
theorem run_cancelled (clock : Clock) (monitor : Monitor) (e : Engine σ) :
    (e.cancelled = true → e.StopsAtOnce clock monitor) ∧
    (e.cancelled = false → ∀ s p earlier, State.Visits clock monitor e s →
      s.snapshots = p :: earlier → monitor.CancelsFirst p earlier →
      (p.phase = .initializing → e.StopsAtOnce clock monitor) ∧
      (p.phase = .evaluating → ∀ rounds, p.generation + 1 < rounds →
        ∃ r last, e.run clock monitor rounds = some r ∧ r.result = .error .cancelled ∧
          r.snapshots = (p :: earlier).reverse ++ [last] ∧
          last.stamp = (.stopped, p.generation + 1)) ∧
      (p.phase = .complete ∨ p.phase = .stopped → ∀ rounds, p.generation < rounds →
        ∃ r unwatched, e.run clock monitor rounds = some r ∧
          e.run clock (.passive monitor.log) rounds = some unwatched ∧
          r.result = unwatched.result ∧ r.snapshots = unwatched.snapshots ∧
          r.events = unwatched.events ∧ r.snapshots = (p :: earlier).reverse)) ∧
    (∀ rounds r, e.run clock monitor rounds = some r →
      (e.cancelled || monitor.hasCancelled r.snapshots.reverse) = true →
      ∀ later, Relation.ReflTransGen Engine.LeavesBehind r.engine later →
        ∀ clock' monitor', later.StopsAtOnce clock' monitor') := by
  refine ⟨Engine.stopsAtOnce_of_cancelled, ?_, ?_⟩
  · intro hclear s p earlier hs hsnapshots hfirst
    -- The first snapshot that cancels is the newest one here, so the flag is set now and was clear
    -- before.
    have hflag : s.engine.cancelled = true := by
      rw [hs.flagFollows, hsnapshots, hfirst.hasCancelled, Bool.or_true]
    -- The phase of the snapshot tells where the search stands.
    rcases hs.newest hsnapshots with
      ⟨hphase, rfl⟩ | ⟨hphase, hs, hgeneration⟩ |
        ⟨hphase, before, result, hbefore, hstep, hgeneration, hearlier⟩
    · -- The flag has been set before the first generation.
      refine ⟨fun _ => Engine.stopsAtOnce_of_start hflag, ?_, ?_⟩ <;> rw [hphase] <;> simp
    · refine ⟨by simp [hphase], ?_, by simp [hphase]⟩
      intro _ rounds hrounds
      rw [← hsnapshots]
      rw [← hgeneration] at hrounds ⊢
      exact hs.exists_run_of_cancelled hflag hrounds
    · have hclear : before.engine.cancelled = false := by
        rw [hbefore.flagFollows, hearlier, hclear, hfirst.1]
        rfl
      refine ⟨?_, ?_, ?_⟩
      · rcases hphase with hphase | hphase <;> simp [hphase]
      · rcases hphase with hphase | hphase <;> simp [hphase]
      · intro _ rounds hrounds
        rw [← hsnapshots]
        rw [← hgeneration] at hrounds
        exact hbefore.exists_run_unwatched hclear hstep hrounds
  · intro rounds r hrun hcancelled later hlater clock' monitor'
    rw [← Engine.Run.cancelled_eq hrun] at hcancelled
    exact Engine.stopsAtOnce_of_cancelled (Engine.cancelled_of_leavesBehind hcancelled hlater)

/-- Cancel a search at its second snapshot. -/
def Monitor.second : Monitor where
  log := none
  cancels snapshots := snapshots.length == 2

/-- The stale engine is cancelled when its first generation has been scored. The next one is its
limit, and yet the run ends cancelled, and every run after it stops at once. -/
theorem run_cancelled_at_limit :
    Engine.stale.cancelled = false ∧ Engine.stale.config.evolve.generationLimit = some 1 ∧
      (∃ t p first, State.Visits .steady .second Engine.stale t ∧ t.snapshots = [p, first] ∧
        p.phase = .evaluating ∧ p.generation = 0 ∧ Monitor.second.CancelsFirst p [first]) ∧
      ∃ r, Engine.stale.run .steady .second 2 = some r ∧ r.result = .error .cancelled ∧
        r.snapshots.map Progress.stamp = [(.initializing, 0), (.evaluating, 0), (.stopped, 1)] ∧
        r.engine.StopsAtOnce .steady (.passive none) := by
  have hwinner : ((State.start .second Engine.stale).evaluate .steady).winner = none := by
    have hpopulation : (State.start .second Engine.stale).population =
        [⟨[.increment]⟩, ⟨[.increment]⟩] := Engine.population_start_stale
    unfold State.evaluate
    rw [hpopulation]
    decide
  have hnext : ∃ t, (State.start .second Engine.stale).step .steady .second = .next t :=
    State.exists_next rfl rfl hwinner
  rcases hnext with ⟨t, hnext⟩
  rcases State.next_snapshot hnext with ⟨-, p, hsnapshots, hphase, htells, -⟩
  rcases State.start_snapshot .second Engine.stale with ⟨first, hfirst, hbegins⟩
  rw [hfirst] at hsnapshots
  have ht : State.Visits .steady .second Engine.stale t :=
    .between (State.Reachable.start.next hnext)
  have hcancels : Monitor.second.CancelsFirst p [first] := ⟨rfl, rfl⟩
  have hgeneration : p.generation = 0 := htells.generation
  rcases ((run_cancelled .steady .second Engine.stale).2.1 rfl t p [first] ht hsnapshots
    hcancels).2.1 hphase 2 (by omega) with ⟨r, last, hrun, hresult, hshown, hlast⟩
  have hset : Monitor.second.hasCancelled r.snapshots.reverse = true := by
    rw [hshown]
    exact (Bool.or_eq_true _ _).mpr (.inr hcancels.hasCancelled)
  have hlater := (run_cancelled .steady .second Engine.stale).2.2 2 r hrun
    ((Bool.or_eq_true _ _).mpr (.inr hset))
  refine ⟨rfl, rfl, ⟨t, p, first, ht, hsnapshots, hphase, hgeneration, hcancels⟩, r, hrun, hresult,
    ?_, hlater r.engine .refl .steady (.passive none)⟩
  have hstarts : first.stamp = (.initializing, 0) := by
    cases hfirst
    rfl
  have hscores : p.stamp = (.evaluating, 0) := Prod.ext hphase hgeneration
  rw [hgeneration] at hlast
  rw [hshown, List.map_append, List.map_singleton, hlast, List.reverse_cons, List.map_append,
    List.map_singleton, hscores, List.reverse_singleton, List.map_singleton, hstarts]
  rfl

end TapeBreeder
