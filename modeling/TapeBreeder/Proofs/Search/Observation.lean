import TapeBreeder.Proofs.Population.BaseCosts
import TapeBreeder.Proofs.Search.Snapshots
import TapeBreeder.Proofs.Search.Winner

/-!
# Searches that are shown in different ways

What is logged of a search, how verbose it is and for how long the runs may take that only show what
a program does: none of this has a part in the search itself. Two searches that differ in it, and
that score the programs of their populations alike, take the same steps.

* `Engine.showing` — an engine with other settings of what is shown.
* `State.mute` — a state without what is logged and without these settings.
* `State.ScoresAlike` — two clocks by which the programs of a population have the same costs.
* `State.mute_step_eq` — states that are the same when muted take the same steps when muted.
* `run_agrees_showing` — two searches that are shown in different ways agree, whether they come to
  an end or not.
-/

namespace TapeBreeder

variable {σ : Type}

/-! ## Without what is shown -/

/-- An engine with other settings of what is shown: whether each generation is worth an
informational record, and the budget of the runs that only show what a program does. -/
def Engine.showing (verbose : Bool) (timeoutMs : UInt64) (e : Engine σ) : Engine σ :=
  { e with config := { e.config with evolve := { e.config.evolve with verbose, timeoutMs } } }

/-- A report that does not tell what its program prints. -/
def Report.withoutOutputs (r : Report) : Report :=
  { r with samples := r.samples.map fun sample => { sample with output := "" } }

/-- An engine without its settings of what is shown. -/
def Engine.mute (e : Engine σ) : Engine σ :=
  e.showing false 0

/-- A state without them, and without its log. -/
def State.mute (s : State σ) : State σ :=
  ⟨s.engine.mute, s.population, s.snapshots, []⟩

/-- A step between states without them, to a result without outputs. -/
def Step.mute : Step σ → Step σ
  | next s => .next s.mute
  | finished s result => .finished s.mute (result.map Report.withoutOutputs)

/-- A sample tells its input, whatever the program prints for it. -/
theorem Engine.input_sample (clock : Clock) (e : Engine σ) (p : Program) (input : String) :
    (e.sample clock p input).input = input := by
  unfold sample
  split <;> rfl

/-- What is left of a report without its outputs does not depend on the clock or on the settings of
what is shown. -/
theorem Engine.withoutOutputs_report (clock : Clock) (e : Engine σ) (winner : Program) :
    (e.report clock winner).withoutOutputs =
      ⟨winner, 0, e.generation, e.examples.map fun pair => ⟨pair.input, ""⟩⟩ := by
  simp [report, Report.withoutOutputs, input_sample]

/-- Whether two runs come to the same end: with the same snapshots, with engines that differ in the
settings of what is shown at most, and with the same result but for what the samples of a report
print. -/
structure Engine.Run.Agrees (r r' : Engine.Run σ) : Prop where
  snapshots : r.snapshots = r'.snapshots
  engine : r.engine.mute = r'.engine.mute
  result : r.result.map Report.withoutOutputs = r'.result.map Report.withoutOutputs

/-! ## The same costs -/

namespace State

/-- The costs of a program at a position of the population, without runtime and with it. -/
def score (clock : Clock) (s : State σ) (position : Nat) (p : Program) : Cost × Cost :=
  let base := p.baseCost clock s.engine.costOptions s.engine.examples
  (base.cost, base.cost.withRuntime s.engine.costOptions
    (clock.elapsed s.engine.generation position base.executed))

/-- Whether two clocks give each program of the population the same costs. -/
def ScoresAlike (clock clock' : Clock) (s : State σ) : Prop :=
  ∀ position p, s.population[position]? = some p →
    s.score clock position p = s.score clock' position p

/-- Clocks that give the same costs give the same evaluation. -/
theorem ScoresAlike.evaluate_eq {clock clock' : Clock} {s : State σ}
    (h : s.ScoresAlike clock clock') : s.evaluate clock = s.evaluate clock' := by
  -- Costs are compared at their places, because runtime is measured there.
  have hscores : s.population.mapIdx (fun position p => (p, s.score clock position p)) =
      s.population.mapIdx (fun position p => (p, s.score clock' position p)) := by
    rw [List.mapIdx_eq_mapIdx_iff]
    intro position hposition
    rw [h position _ (List.getElem?_eq_getElem hposition)]
  exact congrArg (fun results => (Evaluation.ofCosts s.engine.costOptions.timeCost results).sorted)
    hscores

/-- Clocks that measure the same runtimes and differ in other budgets than that of scoring. -/
theorem scoresAlike_of_symbolsWithin_eq {clock clock' : Clock} {s : State σ}
    (hbudget : clock.symbolsWithin s.engine.config.cost.timeoutMs =
      clock'.symbolsWithin s.engine.config.cost.timeoutMs)
    (helapsed : clock.elapsed = clock'.elapsed) : s.ScoresAlike clock clock' := by
  intro position p _
  have hbase : p.baseCost clock s.engine.costOptions s.engine.examples =
      p.baseCost clock' s.engine.costOptions s.engine.examples := by
    unfold Engine.costOptions
    rw [Program.baseCost_effective hbudget.symm, Program.baseCost_effective rfl]
  unfold score
  rw [hbase, helapsed]

/-- Costs do not depend on what is shown. In this direction the lemma lets the second search be
compared with the first. -/
theorem ScoresAlike.of_mute_eq {clock clock' : Clock} {s s' : State σ}
    (h : s.ScoresAlike clock clock') (hmute : s.mute = s'.mute) : s'.ScoresAlike clock' clock := by
  have hsame : s.mute.ScoresAlike clock clock' := h
  rw [hmute] at hsame
  intro position p hp
  exact (hsame position p hp).symm

/-! ## Steps -/

/-! Muting goes through the parts of a step; what they log is gone. -/

theorem mute_log (monitor : Monitor) (event : Option Event) (s : State σ) :
    (s.log monitor event).mute = s.mute :=
  rfl

/-- A snapshot tells nothing of the settings of what is shown, and so it can be taken of the muted
state. -/
theorem mute_snapshot (log : LogFilter) (cancels : List Progress → Bool)
    (evaluation : Option Evaluation) (phase : Phase) (s : State σ) :
    (s.snapshot ⟨log, cancels⟩ evaluation phase).mute =
      s.mute.snapshot ⟨none, cancels⟩ evaluation phase :=
  rfl

theorem mute_advance (draws : StateM σ (List Program)) (s : State σ) :
    (s.advance draws).mute = s.mute.advance draws :=
  rfl

theorem mute_observe (monitor : Monitor) (best : Charge) (s : State σ) :
    (s.observe monitor best).mute =
      { s.mute with
        engine := { s.mute.engine with stagnation := s.mute.engine.stagnation.observe best } } :=
  rfl

/-- Nothing of what is shown has a part in breeding. -/
theorem nextGeneration_mute [RandomSource σ] (evaluation : Evaluation) (s : State σ) :
    nextGeneration s.mute.engine.config.evolve s.mute.engine.config.mutation evaluation =
      nextGeneration (σ := σ) s.engine.config.evolve s.engine.config.mutation evaluation :=
  rfl

variable [RandomSource σ] {clock clock' : Clock} {log log' : LogFilter}
  {cancels : List Progress → Bool} {e e' : Engine σ} {s s' t : State σ}

/-- A state goes where its muted state goes, by any clock that gives its programs the same costs. -/
theorem mute_step (h : s.evaluate clock = s.evaluate clock') :
    (s.step clock ⟨log, cancels⟩).mute = (s.mute.step clock' ⟨none, cancels⟩).mute := by
  have hevaluate : s.mute.evaluate clock' = s.evaluate clock := h.symm
  -- What is logged is gone on both sides, and nothing else reads what has been muted.
  generalize hstep : s.step clock ⟨log, cancels⟩ = result
  -- Each way to go on or to end holds of the muted state on the same grounds, which it does not
  -- read off the log.
  cases stepsTo_of_step hstep with
  | cancelled hcancelled =>
    have hmute : StepsTo clock' ⟨none, cancels⟩ s.mute _ := .cancelled hcancelled
    rw [hmute.step_eq]
    rfl
  | limitReached hcancelled hlimit =>
    have hmute : StepsTo clock' ⟨none, cancels⟩ s.mute _ := .limitReached hcancelled hlimit
    rw [hmute.step_eq]
    rfl
  | found hcancelled hlimit hwinner =>
    have hmute : StepsTo clock' ⟨none, cancels⟩ s.mute _ :=
      .found hcancelled hlimit (by rw [hevaluate, hwinner])
    rw [hmute.step_eq]
    simp only [Step.mute, Except.map, Engine.withoutOutputs_report, hevaluate]
    rfl
  | allInvalid hcancelled hlimit hwinner hbest =>
    have hmute : StepsTo clock' ⟨none, cancels⟩ s.mute _ :=
      .allInvalid hcancelled hlimit (by rw [hevaluate, hwinner]) (by rw [hevaluate, hbest])
    rw [hmute.step_eq, hevaluate]
    rfl
  | bred hcancelled hlimit hwinner hbest _ =>
    have hmute : StepsTo clock' ⟨none, cancels⟩ s.mute _ :=
      .bred hcancelled hlimit (by rw [hevaluate, hwinner]) (by rw [hevaluate, hbest]) rfl
    rw [hmute.step_eq, hevaluate, Step.mute, Step.mute, nextGeneration_mute]
    simp only [mute_advance, mute_snapshot, mute_log, mute_observe]
    rfl

/-- Two states that differ only in what is shown go to two such states, or end with results that
differ in outputs only. -/
theorem mute_step_eq (hscores : s.ScoresAlike clock clock') (h : s.mute = s'.mute) :
    (s.step clock ⟨log, cancels⟩).mute = (s'.step clock' ⟨log', cancels⟩).mute := by
  rw [mute_step hscores.evaluate_eq, h, ← mute_step rfl]

/-- A search goes on where one goes on that is shown in another way. -/
theorem exists_next_of_mute_eq (hscores : s.ScoresAlike clock clock') (h : s.mute = s'.mute)
    (hstep : s.step clock ⟨log, cancels⟩ = .next t) :
    ∃ t', s'.step clock' ⟨log', cancels⟩ = .next t' ∧ t.mute = t'.mute := by
  have hsteps : (s.step clock ⟨log, cancels⟩).mute = (s'.step clock' ⟨log', cancels⟩).mute :=
    mute_step_eq hscores h
  rw [hstep] at hsteps
  cases hstep' : s'.step clock' ⟨log', cancels⟩ with
  | next t' =>
    rw [hstep'] at hsteps
    exact ⟨t', rfl, Step.next.inj hsteps⟩
  | finished t' result =>
    rw [hstep'] at hsteps
    cases hsteps

/-- And it ends where that one ends, with the same result but for outputs. -/
theorem exists_finished_of_mute_eq {result : Except SearchError Report}
    (hscores : s.ScoresAlike clock clock') (h : s.mute = s'.mute)
    (hstep : s.step clock ⟨log, cancels⟩ = .finished t result) :
    ∃ t' result', s'.step clock' ⟨log', cancels⟩ = .finished t' result' ∧ t.mute = t'.mute ∧
      result.map Report.withoutOutputs = result'.map Report.withoutOutputs := by
  have hsteps : (s.step clock ⟨log, cancels⟩).mute = (s'.step clock' ⟨log', cancels⟩).mute :=
    mute_step_eq hscores h
  rw [hstep] at hsteps
  cases hstep' : s'.step clock' ⟨log', cancels⟩ with
  | next t' =>
    rw [hstep'] at hsteps
    cases hsteps
  | finished t' result' =>
    rw [hstep'] at hsteps
    rcases Step.finished.inj hsteps with ⟨hmute, hresult⟩
    exact ⟨t', result', rfl, hmute, hresult⟩

/-! ## Searches -/

theorem mute_start_eq (h : e.mute = e'.mute) :
    (start ⟨log, cancels⟩ e).mute = (start ⟨log', cancels⟩ e').mute := by
  show start ⟨none, cancels⟩ e.mute = start ⟨none, cancels⟩ e'.mute
  rw [h]

/-- A search comes through the same muted states as one that is shown in another way, as long as the
two score its programs alike. -/
theorem Reachable.exists_mute_eq (he : e.mute = e'.mute)
    (hscores : ∀ s, Reachable clock ⟨log, cancels⟩ e s → s.ScoresAlike clock clock')
    (hs : Reachable clock ⟨log, cancels⟩ e s) :
    ∃ s', Reachable clock' ⟨log', cancels⟩ e' s' ∧ s.mute = s'.mute := by
  induction hs with
  | start => exact ⟨_, .start, mute_start_eq he⟩
  | @next s t hs hstep ih =>
    rcases ih with ⟨s', hs', hmute⟩
    rcases exists_next_of_mute_eq (hscores s hs) hmute hstep with ⟨t', hstep', hmute'⟩
    exact ⟨t', hs'.next hstep', hmute'⟩

/-- It misses none of them. -/
theorem Reachable.exists_eq_mute (he : e.mute = e'.mute)
    (hscores : ∀ s, Reachable clock ⟨log, cancels⟩ e s → s.ScoresAlike clock clock')
    (hs' : Reachable clock' ⟨log', cancels⟩ e' s') :
    ∃ s, Reachable clock ⟨log, cancels⟩ e s ∧ s.mute = s'.mute := by
  induction hs' with
  | start => exact ⟨_, .start, mute_start_eq he⟩
  | @next s' t' hs' hstep' ih =>
    rcases ih with ⟨s, hs, hmute⟩
    have hscores' : s'.ScoresAlike clock' clock := (hscores s hs).of_mute_eq hmute
    rcases exists_next_of_mute_eq hscores' hmute.symm hstep' with ⟨t, hstep, hmute'⟩
    exact ⟨t, hs.next hstep, hmute'.symm⟩

/-- So the two take the same snapshots, up to the last one. -/
theorem Visits.exists_mute_eq (he : e.mute = e'.mute)
    (hscores : ∀ s, Reachable clock ⟨log, cancels⟩ e s → s.ScoresAlike clock clock')
    (ht : Visits clock ⟨log, cancels⟩ e t) :
    ∃ t', Visits clock' ⟨log', cancels⟩ e' t' ∧ t.mute = t'.mute := by
  cases ht with
  | between ht =>
    rcases ht.exists_mute_eq he hscores with ⟨t', ht', hmute⟩
    exact ⟨t', .between ht', hmute⟩
  | @last s t result hs hstep =>
    rcases hs.exists_mute_eq he hscores with ⟨s', hs', hmute⟩
    rcases exists_finished_of_mute_eq (hscores s hs) hmute hstep with
      ⟨t', result', hstep', hmute', -⟩
    exact ⟨t', .last hs' hstep', hmute'⟩

/-- Two searches that are shown in different ways come to an end after as many rounds, or neither
does. -/
theorem Reachable.run_agrees
    (hscores : ∀ s, Reachable clock ⟨log, cancels⟩ e s → s.ScoresAlike clock clock')
    (hs : Reachable clock ⟨log, cancels⟩ e s) (hmute : s.mute = s'.mute) (rounds : Nat) :
    Option.Rel Engine.Run.Agrees (s.run clock ⟨log, cancels⟩ rounds)
      (s'.run clock' ⟨log', cancels⟩ rounds) := by
  induction rounds generalizing s s' with
  | zero => exact .none
  | succ rounds ih =>
    -- The two take one step each, of the same kind.
    cases hstep : s.step clock ⟨log, cancels⟩ with
    | next t =>
      rcases exists_next_of_mute_eq (hscores s hs) hmute hstep with ⟨t', hstep', hmute'⟩
      rw [run_of_next hstep, run_of_next hstep']
      exact ih (hs.next hstep) hmute'
    | finished t result =>
      rcases exists_finished_of_mute_eq (hscores s hs) hmute hstep with
        ⟨t', result', hstep', hmute', hresult⟩
      rw [run_of_finished hstep, run_of_finished hstep']
      apply Option.Rel.some
      constructor
      · have hsnapshots : t.snapshots = t'.snapshots := congrArg (·.snapshots) hmute'
        rw [hsnapshots]
      · exact congrArg (·.engine) hmute'
      · exact hresult

end State

/-! ## Whole searches -/

/-- A run that comes to an end has a counterpart that agrees with it. -/
theorem Engine.exists_agreeing_run [RandomSource σ] {clock clock' : Clock} {log log' : LogFilter}
    {cancels : List Progress → Bool} {e e' : Engine σ} {rounds : Nat} {r : Engine.Run σ}
    (he : e.mute = e'.mute)
    (hscores : ∀ s, State.Reachable clock ⟨log, cancels⟩ e s → s.ScoresAlike clock clock')
    (hrun : e.run clock ⟨log, cancels⟩ rounds = some r) :
    ∃ r', e'.run clock' ⟨log', cancels⟩ rounds = some r' ∧ r.Agrees r' := by
  have hagree : Option.Rel Engine.Run.Agrees (e.run clock ⟨log, cancels⟩ rounds)
      (e'.run clock' ⟨log', cancels⟩ rounds) :=
    State.Reachable.start.run_agrees hscores (State.mute_start_eq he) rounds
  rw [hrun] at hagree
  generalize e'.run clock' ⟨log', cancels⟩ rounds = shown at hagree
  cases hagree with
  | some hagree => exact ⟨_, rfl, hagree⟩

/-- Runs that agree report the same program. -/
theorem Engine.Run.Agrees.exists_report {r r' : Engine.Run σ} {report : Report}
    (h : r.Agrees r') (hresult : r.result = .ok report) :
    ∃ report', r'.result = .ok report' ∧ report'.withoutOutputs = report.withoutOutputs := by
  have hsame := h.result
  rw [hresult] at hsame
  cases hresult' : r'.result with
  | error error =>
    rw [hresult'] at hsame
    cases hsame
  | ok report' =>
    rw [hresult'] at hsame
    exact ⟨report', rfl, (Except.ok.inj hsame).symm⟩

/-- The samples of a report, within the budget of the settings that the run began with. -/
theorem Engine.samples_of_run [RandomSource σ] {clock : Clock} {monitor : Monitor} {rounds : Nat}
    {e : Engine σ} {r : Engine.Run σ} {report : Report} (hrun : e.run clock monitor rounds = some r)
    (hresult : r.result = .ok report) :
    report.samples = e.examples.map fun pair => e.sample clock report.program pair.input := by
  rcases exists_report_of_run hrun hresult with ⟨s, winner, hs, -, rfl⟩
  rcases hs.carried with ⟨hconfig, hexamples⟩
  unfold report sample
  rw [hconfig, hexamples]

/-- What is shown of a search has no part in it. Take two engines in the same state whose settings
differ only in their verbosity and in the budget of the runs that show what a program does, and let
their searches be logged in different ways and measured by different clocks, as long as these give
the programs of each population the same costs. Then the two come through the same states but for
what is logged, and so with the same snapshots. Both come to an end within the same rounds, with the
same draws made, in the same generation and with the same notes on stagnation, and have the same
result, except for what the samples of a report print. -/
theorem run_agrees_showing [RandomSource σ] {clock clock' : Clock} {log log' : LogFilter}
    {cancels : List Progress → Bool} {e : Engine σ} (verbose : Bool) (timeoutMs : UInt64)
    (hscores : ∀ s, State.Reachable clock ⟨log, cancels⟩ e s → s.ScoresAlike clock clock') :
    (∀ t, State.Visits clock ⟨log, cancels⟩ e t →
      ∃ t', State.Visits clock' ⟨log', cancels⟩ (e.showing verbose timeoutMs) t' ∧
        t.mute = t'.mute) ∧
    (∀ t', State.Visits clock' ⟨log', cancels⟩ (e.showing verbose timeoutMs) t' →
      ∃ t, State.Visits clock ⟨log, cancels⟩ e t ∧ t'.mute = t.mute) ∧
    ∀ rounds, Option.Rel Engine.Run.Agrees (e.run clock ⟨log, cancels⟩ rounds)
      ((e.showing verbose timeoutMs).run clock' ⟨log', cancels⟩ rounds) := by
  have hmute : e.mute = (e.showing verbose timeoutMs).mute := rfl
  refine ⟨?_, ?_, ?_⟩
  · intro t ht
    exact ht.exists_mute_eq hmute hscores
  · intro t' ht'
    -- The programs of the second search are those of the first one.
    apply ht'.exists_mute_eq hmute.symm
    intro s' hs'
    rcases hs'.exists_eq_mute hmute hscores with ⟨s, hs, hsame⟩
    exact (hscores s hs).of_mute_eq hsame
  · intro rounds
    exact State.Reachable.start.run_agrees hscores (State.mute_start_eq hmute) rounds

/-- A clock that gives no run more than it gives in so many milliseconds. -/
def Clock.capped (limit : UInt64) (clock : Clock) : Clock where
  symbolsWithin milliseconds := min (clock.symbolsWithin milliseconds) (clock.symbolsWithin limit)
  elapsed := clock.elapsed
  symbolsWithin_mono h := by
    have hmono := clock.symbolsWithin_mono h
    omega

/-- Of two searches one shows what its program prints. The other one logs everything and goes by
another clock, and its program is stopped at once when it is to be shown. Both report the same
program. -/
theorem run_agrees_showing_echo :
    ∃ r r' report report',
      FreeDraw.echo.engine.run .steady (.passive none) 1 = some r ∧
      (FreeDraw.echo.engine.showing true 0).run (Clock.steady.capped 10)
        (.passive (some .trace)) 1 = some r' ∧
      r.snapshots = r'.snapshots ∧ r.result = .ok report ∧ r'.result = .ok report' ∧
      report.program = report'.program ∧ report.samples = [⟨"ba", "ba"⟩] ∧
      report'.samples = [⟨"ba", "<Program timed out after 0 ms>"⟩] := by
  have hscores : ∀ s, State.Reachable .steady (.passive none) FreeDraw.echo.engine s →
      s.ScoresAlike .steady (Clock.steady.capped 10) := by
    intro s hs
    apply State.scoresAlike_of_symbolsWithin_eq
    · rw [hs.carried.1]
      decide
    · rfl
  have hagree : Option.Rel Engine.Run.Agrees
      (FreeDraw.echo.engine.run .steady (.passive none) 1)
      ((FreeDraw.echo.engine.showing true 0).run (Clock.steady.capped 10)
        (.passive (some .trace)) 1) := (run_agrees_showing true 0 hscores).2.2 1
  rcases FreeDraw.echo.exists_run with ⟨r, report, hrun, hresult, hprogram⟩
  rw [hrun] at hagree
  generalize hshown : (FreeDraw.echo.engine.showing true 0).run (Clock.steady.capped 10)
    (.passive (some .trace)) 1 = shown at hagree
  cases hagree with
  | @some _ r' hagree =>
    rcases hagree.exists_report hresult with ⟨report', hresult', hreport⟩
    have hprogram' : report'.program = report.program := congrArg (·.program) hreport
    refine ⟨r, r', report, report', hrun, rfl, hagree.snapshots, hresult, hresult',
      hprogram'.symm, ?_, ?_⟩
    · have hending : Program.echoTwo.ending .steady { timeoutMs := 20 } "ba" = .halted "ba" :=
        Program.ending_echoTwo (by decide)
      have hprinted : Program.echoTwo.evaluate .steady "ba"
          FreeDraw.echo.engine.config.evolve.timeoutMs = .ok "ba" :=
        Program.evaluate_eq_ok_iff.mpr hending
      rw [Engine.samples_of_run hrun hresult, hprogram]
      show [FreeDraw.echo.engine.sample .steady .echoTwo "ba"] = _
      rw [Engine.sample, hprinted]
    · rw [Engine.samples_of_run hshown hresult', hprogram', hprogram]
      show [(FreeDraw.echo.engine.showing true 0).sample (Clock.steady.capped 10) .echoTwo "ba"] = _
      decide

end TapeBreeder
