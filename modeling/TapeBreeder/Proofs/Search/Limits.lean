import TapeBreeder.Proofs.Search.Cancellation
import TapeBreeder.Proofs.Search.Core
import TapeBreeder.Proofs.Search.Winner

/-!
# Searches with different limits

Two searches that differ in their generation limits only go through the same generations, up to the
lower limit. So what the search with the lower limit shows is the beginning of what the other one
shows, and a program that one of them finds in time for both is found by the other one too.

* `Engine.withLimit` — an engine with another limit.
* `Engine.run_snapshots` — a run shows all that the states on its way have shown.
* `Engine.exists_found` — a program that is found before the limit of another search is found by
  that search too.
* `Engine.exists_state_of_error` — a search that gives up has shown what another one shows on its
  way, if the limit of that one is not lower.
* `run_extends` — what a higher limit adds to a run.
-/

namespace TapeBreeder

variable {σ : Type}

/-- An engine with another generation limit. -/
def Engine.withLimit (limit : Option UInt64) (e : Engine σ) : Engine σ :=
  { e with config := { e.config with evolve := { e.config.evolve with generationLimit := limit } } }

/-- An engine with its own limit is the engine. -/
theorem Engine.withLimit_self {e : Engine σ} {limit : Option UInt64}
    (h : e.config.evolve.generationLimit = limit) : e.withLimit limit = e := by
  subst h
  rfl

/-- Whether a limit is at most another one; no limit at all is the highest. -/
def LimitLE (low high : Option UInt64) : Prop :=
  ∀ limit, high = some limit → ∃ lower, low = some lower ∧ lower.toNat ≤ limit.toNat

/-- A report tells of the samples, and those depend on a budget that is not part of the core. -/
theorem Engine.report_eq {e e' : Engine σ} (hcore : e.core = e'.core)
    (hbudget : e.config.evolve.timeoutMs = e'.config.evolve.timeoutMs) (clock : Clock)
    (winner : Program) : e.report clock winner = e'.report clock winner := by
  have hgeneration : e.generation = e'.generation := congrArg (·.generation) hcore
  have hexamples : e.examples = e'.examples := congrArg (·.examples) hcore
  unfold report sample
  rw [hgeneration, hexamples, hbudget]

/-- Snapshots before the last one of a run that gives up. -/
def unstopped (snapshots : List Progress) : List Progress :=
  snapshots.filter fun p => p.phase ≠ .stopped

variable [RandomSource σ] {clock : Clock} {monitor monitor' : Monitor} {e e' : Engine σ}

/-! ## What a run shows -/

namespace State

variable {s : State σ}

/-- A run goes on from the snapshots that have been taken. -/
theorem run_snapshots {rounds : Nat} {r : Engine.Run σ}
    (h : s.run clock monitor rounds = some r) : s.snapshots.reverse <+: r.snapshots := by
  induction rounds generalizing s with
  | zero => cases h
  | succ rounds ih =>
    -- Whether the search goes on or ends, it puts one more snapshot on those that have been taken.
    cases hstep : s.step clock monitor with
    | next t =>
      rw [run_of_next hstep] at h
      rcases next_snapshot hstep with ⟨-, p, hsnapshots, -⟩
      have hrest : t.snapshots.reverse <+: r.snapshots := ih h
      rw [hsnapshots, List.reverse_cons] at hrest
      exact (List.prefix_append _ _).trans hrest
    | finished t result =>
      rw [run_of_finished hstep] at h
      rcases finished_snapshot hstep with ⟨p, hsnapshots, -⟩
      obtain rfl := Option.some.inj h
      rw [hsnapshots, List.reverse_cons]
      exact List.prefix_append _ _

/-- Before its end, a search has not stopped. -/
theorem Reachable.unstopped_eq (hs : Reachable clock monitor e s) :
    unstopped s.snapshots.reverse = s.snapshots.reverse := by
  apply List.filter_eq_self.mpr
  intro p hp
  have hstamp : p.stamp ∈ stampsBefore s.engine.generation := by
    rw [← hs.stamps, ← List.map_reverse]
    exact List.mem_map_of_mem hp
  rw [decide_eq_true_eq]
  intro hstopped
  -- Only two phases are shown before the end: the first one once, and then one for each generation.
  rcases List.mem_cons.mp hstamp with hfirst | hlater
  · have hphase : p.phase = .initializing := congrArg Prod.fst hfirst
    rw [hstopped] at hphase
    cases hphase
  · rcases List.mem_map.mp hlater with ⟨n, -, hn⟩
    have hphase : Phase.evaluating = p.phase := congrArg Prod.fst hn
    rw [hstopped] at hphase
    cases hphase

/-- A search that gives up adds a snapshot that says so, one that finds a program adds another. -/
theorem Reachable.unstopped_finished {t : State σ} {result : Except SearchError Report}
    (hs : Reachable clock monitor e s) (h : s.step clock monitor = .finished t result) :
    (∃ report, result = .ok report) ∧ unstopped t.snapshots.reverse = t.snapshots.reverse ∨
      (∃ error, result = .error error) ∧
        unstopped t.snapshots.reverse = s.snapshots.reverse := by
  have hbefore : unstopped s.snapshots.reverse = s.snapshots.reverse := hs.unstopped_eq
  -- The snapshots before the last one stay, so the last one alone decides.
  have hlast : ∀ p : Progress, unstopped (s.snapshots.reverse ++ [p]) =
      s.snapshots.reverse ++ unstopped [p] := by
    intro p
    rw [unstopped, List.filter_append]
    exact congrArg (· ++ unstopped [p]) hbefore
  cases stepsTo_of_step h with
  | cancelled _ =>
    right
    refine ⟨⟨_, rfl⟩, ?_⟩
    show unstopped (_ :: s.snapshots).reverse = _
    rw [List.reverse_cons, hlast]
    exact List.append_nil _
  | limitReached _ _ =>
    right
    refine ⟨⟨_, rfl⟩, ?_⟩
    show unstopped (_ :: s.snapshots).reverse = _
    rw [List.reverse_cons, hlast]
    exact List.append_nil _
  | found _ _ _ =>
    left
    refine ⟨⟨_, rfl⟩, ?_⟩
    show unstopped (_ :: s.snapshots).reverse = (_ :: s.snapshots).reverse
    rw [List.reverse_cons, hlast]
    rfl

end State

namespace Engine

variable {rounds rounds' : Nat} {r r' : Run σ}

/-- Runs of one engine that are watched in the same way are the same run. -/
theorem run_unique (hr : e.run clock monitor rounds = some r)
    (hr' : e.run clock monitor rounds' = some r') : r = r' := by
  have hmore := run_mono hr (Nat.le_max_left rounds rounds')
  have hmore' := run_mono hr' (Nat.le_max_right rounds rounds')
  rw [hmore] at hmore'
  exact Option.some.inj hmore'

/-- A run shows all that the states on its way have shown. -/
theorem run_snapshots {s : State σ} (hs : State.Reachable clock monitor e s)
    (hr : e.run clock monitor rounds = some r) : s.snapshots.reverse <+: r.snapshots := by
  have hmore : e.run clock monitor (s.engine.generation + rounds) = some r :=
    run_mono hr (Nat.le_add_left _ _)
  rw [hs.run_eq] at hmore
  exact State.run_snapshots hmore

/-- A program that is found is found before the limit. -/
theorem generation_lt_of_run {report : Report} {limit : UInt64}
    (hr : e.run clock monitor rounds = some r) (hok : r.result = .ok report)
    (hlimit : e.config.evolve.generationLimit = some limit) : report.generation < limit.toNat := by
  rcases run_eq_some_iff.mp hr with ⟨s, t, result, hs, -, hstep, rfl⟩
  obtain rfl : result = .ok report := hok
  cases State.stepsTo_of_step hstep with
  | found _ hopen _ =>
    rw [← hs.carried.1] at hlimit
    exact lt_of_reachedLimit?_eq_none hlimit hopen

/-! ## The same program -/

/-- A program that a search finds before the limit of another search with its core is found by that
one too, in the same generation and after the same snapshots. -/
theorem exists_found (hcore : e.core = e'.core)
    (hbudget : e.config.evolve.timeoutMs = e'.config.evolve.timeoutMs)
    (hclear : ∀ s', State.Reachable clock monitor' e' s' → s'.engine.cancelled = false)
    {report : Report} (hr : e.run clock monitor rounds = some r) (hok : r.result = .ok report)
    (hlimit : ∀ limit, e'.config.evolve.generationLimit = some limit →
      report.generation < limit.toNat) :
    ∃ r', e'.run clock monitor' rounds = some r' ∧ r'.result = .ok report ∧
      r'.snapshots.map Progress.unlimited = r.snapshots.map Progress.unlimited := by
  rcases run_eq_some_iff.mp hr with ⟨s, t, result, hs, hlt, hstep, rfl⟩
  obtain rfl : result = .ok report := hok
  have hgeneration : report.generation = s.engine.generation := by
    cases State.stepsTo_of_step hstep with
    | found _ _ _ => rfl
  rw [hgeneration] at hlimit
  -- The other search comes to the same generation, since its limit is not reached before.
  have hcounterpart : ∃ s', State.Reachable clock monitor' e' s' ∧ s.core = s'.core := by
    apply hs.exists_counterpart hcore hclear
    intro limit hsome
    exact Nat.le_of_lt (hlimit limit hsome)
  rcases hcounterpart with ⟨s', hs', hagree⟩
  have hsame : s.engine.generation = s'.engine.generation := State.generation_of_core_eq hagree
  have hopen : s'.engine.reachedLimit? = none := by
    apply reachedLimit?_eq_none_iff.mpr
    intro limit hsome
    rw [← hsame]
    apply hlimit
    rw [← hs'.carried.1, hsome]
  have hfound : ∃ t' winner, report = s.engine.report clock winner ∧
      s'.step clock monitor' = .finished t' (.ok (s'.engine.report clock winner)) ∧
      t'.core = t.core :=
    State.found_of_core_eq hagree hstep (hclear s' hs') hopen
  rcases hfound with ⟨t', winner, hreport, hstep', ht'⟩
  have hengine : s.engine.core = s'.engine.core := congrArg (·.engine) hagree
  have hbudgets : s.engine.config.evolve.timeoutMs = s'.engine.config.evolve.timeoutMs := by
    rw [hs.carried.1, hs'.carried.1, hbudget]
  -- The report is made by the other engine. Its budget for showing is the same, and its core is.
  have hreports : s.engine.report clock winner = s'.engine.report clock winner :=
    report_eq hengine hbudgets clock winner
  have hsnapshots : t'.snapshots.map Progress.unlimited = t.snapshots.map Progress.unlimited :=
    congrArg (·.snapshots) ht'
  refine ⟨_, run_eq_some_iff.mpr ⟨s', t', _, hs', hsame ▸ hlt, hstep', rfl⟩, ?_, ?_⟩
  · rw [hreport, hreports]
  · rw [List.map_reverse, List.map_reverse, hsnapshots]

/-! ## The same beginning -/

/-- A run that finds a program shows no stop. -/
theorem unstopped_eq_of_ok {report : Report} (hr : e.run clock monitor rounds = some r)
    (hok : r.result = .ok report) : unstopped r.snapshots = r.snapshots := by
  rcases run_eq_some_iff.mp hr with ⟨s, t, result, hs, -, hstep, rfl⟩
  obtain rfl : result = .ok report := hok
  rcases hs.unstopped_finished hstep with ⟨-, hshown⟩ | ⟨⟨error, herror⟩, -⟩
  · exact hshown
  · cases herror

/-- A search that gives up has shown, up to then, what another one with its core has shown on the
way to some state, if the limit of that one is not lower. -/
theorem exists_state_of_error (hcore : e.core = e'.core)
    (hclear : ∀ s', State.Reachable clock monitor' e' s' → s'.engine.cancelled = false)
    (hle : LimitLE e.config.evolve.generationLimit e'.config.evolve.generationLimit)
    {error : SearchError} (hr : e.run clock monitor rounds = some r)
    (herror : r.result = .error error) :
    ∃ s', State.Reachable clock monitor' e' s' ∧
      s'.snapshots.reverse.map Progress.unlimited =
        (unstopped r.snapshots).map Progress.unlimited := by
  rcases run_eq_some_iff.mp hr with ⟨s, t, result, hs, -, hstep, rfl⟩
  obtain rfl : result = .error error := herror
  have hcounterpart : ∃ s', State.Reachable clock monitor' e' s' ∧ s.core = s'.core := by
    apply hs.exists_counterpart hcore hclear
    intro limit hsome
    rcases hle limit hsome with ⟨lower, hlower, hle⟩
    exact Nat.le_trans (hs.generation_le hlower) hle
  rcases hcounterpart with ⟨s', hs', hagree⟩
  have hsnapshots : s.snapshots.map Progress.unlimited = s'.snapshots.map Progress.unlimited :=
    congrArg (·.snapshots) hagree
  have hshown : unstopped t.snapshots.reverse = s.snapshots.reverse := by
    rcases hs.unstopped_finished hstep with ⟨⟨report, hreport⟩, -⟩ | ⟨-, hshown⟩
    · cases hreport
    · exact hshown
  refine ⟨s', hs', ?_⟩
  show _ = (unstopped t.snapshots.reverse).map Progress.unlimited
  rw [hshown, List.map_reverse, List.map_reverse, hsnapshots]

/-- A search whose limit is not lower finds the same program. -/
theorem exists_found_of_le (hcore : e.core = e'.core)
    (hbudget : e.config.evolve.timeoutMs = e'.config.evolve.timeoutMs)
    (hclear : ∀ s', State.Reachable clock monitor' e' s' → s'.engine.cancelled = false)
    (hle : LimitLE e.config.evolve.generationLimit e'.config.evolve.generationLimit)
    {report : Report} (hr : e.run clock monitor rounds = some r) (hok : r.result = .ok report) :
    ∃ r', e'.run clock monitor' rounds = some r' ∧ r'.result = .ok report ∧
      r'.snapshots.map Progress.unlimited = r.snapshots.map Progress.unlimited := by
  apply exists_found hcore hbudget hclear hr hok
  intro limit hlimit
  rcases hle limit hlimit with ⟨lower, hlower, hle⟩
  exact Nat.lt_of_lt_of_le (generation_lt_of_run hr hok hlower) hle

/-- What a search shows before it stops is the beginning of what another one with its core shows, if
the limit of that one is not lower. -/
theorem unstopped_prefix (hcore : e.core = e'.core)
    (hbudget : e.config.evolve.timeoutMs = e'.config.evolve.timeoutMs)
    (hclear : ∀ s', State.Reachable clock monitor' e' s' → s'.engine.cancelled = false)
    (hle : LimitLE e.config.evolve.generationLimit e'.config.evolve.generationLimit)
    (hr : e.run clock monitor rounds = some r) (hr' : e'.run clock monitor' rounds' = some r') :
    (unstopped r.snapshots).map Progress.unlimited <+: r'.snapshots.map Progress.unlimited := by
  -- A search that finds a program shows nothing more; one that gives up has been overtaken at the
  -- state where it gave up.
  cases hresult : r.result with
  | ok report =>
    rcases exists_found_of_le hcore hbudget hclear hle hr hresult with ⟨r'', hr'', -, hsnapshots⟩
    obtain rfl := run_unique hr'' hr'
    have hshown : unstopped r.snapshots = r.snapshots := unstopped_eq_of_ok hr hresult
    have hsame : (unstopped r.snapshots).map Progress.unlimited =
        r''.snapshots.map Progress.unlimited := by
      rw [hshown, hsnapshots]
    exact ⟨[], by rw [List.append_nil, hsame]⟩
  | error error =>
    rcases exists_state_of_error hcore hclear hle hr hresult with ⟨s', hs', hshown⟩
    rw [← hshown]
    exact (run_snapshots hs' hr').map Progress.unlimited

end Engine

/-- What a higher limit adds to a run, if nobody cancels it: nothing but later generations. The
snapshots of the run with the lower limit, apart from the one that says that it stops, are the
beginning of what the search with the higher limit shows. That search does come to an end if it has
a limit, and if it has none and goes on for ever, it still comes to a state in which it has shown
the same. A program that the run with the lower limit finds is found with the higher limit too, and
so is the other way round a program that is found before the lower limit, with the same report after
the same snapshots. -/
theorem run_extends (clock : Clock) (monitor monitor' : Monitor) (e : Engine σ)
    {low high : Option UInt64} (hle : LimitLE low high)
    (hclear : ∀ s, State.Reachable clock monitor (e.withLimit low) s →
      s.engine.cancelled = false)
    (hclear' : ∀ s, State.Reachable clock monitor' (e.withLimit high) s →
      s.engine.cancelled = false) :
    (∀ rounds r rounds' r', (e.withLimit low).run clock monitor rounds = some r →
      (e.withLimit high).run clock monitor' rounds' = some r' →
      (unstopped r.snapshots).map Progress.unlimited <+:
        r'.snapshots.map Progress.unlimited) ∧
    (∀ limit, high = some limit → ∀ rounds', limit.toNat < rounds' →
      ((e.withLimit high).run clock monitor' rounds').isSome) ∧
    (∀ rounds r error, (e.withLimit low).run clock monitor rounds = some r →
      r.result = .error error →
      ∃ s, State.Reachable clock monitor' (e.withLimit high) s ∧
        s.snapshots.reverse.map Progress.unlimited =
          (unstopped r.snapshots).map Progress.unlimited) ∧
    (∀ rounds r report, (e.withLimit low).run clock monitor rounds = some r →
      r.result = .ok report →
      ∃ r', (e.withLimit high).run clock monitor' rounds = some r' ∧ r'.result = .ok report ∧
        r'.snapshots.map Progress.unlimited = r.snapshots.map Progress.unlimited) ∧
    (∀ rounds r' report, (e.withLimit high).run clock monitor' rounds = some r' →
      r'.result = .ok report → (∀ limit, low = some limit → report.generation < limit.toNat) →
      ∃ r, (e.withLimit low).run clock monitor rounds = some r ∧ r.result = .ok report ∧
        r.snapshots.map Progress.unlimited = r'.snapshots.map Progress.unlimited) := by
  -- The two engines differ in their limits only, so they have one core.
  have hcore : (e.withLimit low).core = (e.withLimit high).core := rfl
  refine ⟨?_, ?_, ?_, ?_, ?_⟩
  · intro rounds r rounds' r' hr hr'
    exact Engine.unstopped_prefix hcore rfl hclear' hle hr hr'
  · intro limit hlimit rounds' hrounds
    exact Engine.isSome_run hlimit hrounds
  · intro rounds r error hr herror
    exact Engine.exists_state_of_error hcore hclear' hle hr herror
  · intro rounds r report hr hok
    exact Engine.exists_found_of_le hcore rfl hclear' hle hr hok
  · intro rounds r' report hr' hok hbefore
    exact Engine.exists_found hcore.symm rfl hclear hr' hok hbefore

/-- The stale engine finds nothing in its only generation, and what it shows until then is how it
begins with a limit of two generations as well. The engine that draws a program which echoes two
characters finds that program with its usual limit, and without a limit too. -/
theorem run_extends_stale_and_echo :
    (LimitLE (some 1) (some 2) ∧
      ∃ r r', (Engine.stale.withLimit (some 1)).run .steady (.passive none) 2 = some r ∧
        (Engine.stale.withLimit (some 2)).run .steady (.passive (some .trace)) 3 = some r' ∧
        r.result = .error (.exhausted 1) ∧
        r.snapshots.map Progress.stamp = [(.initializing, 0), (.evaluating, 0), (.stopped, 1)] ∧
        (unstopped r.snapshots).map Progress.unlimited <+:
          r'.snapshots.map Progress.unlimited) ∧
    (LimitLE (some 10000) none ∧ ∃ r r' report,
      (FreeDraw.engine .echo |>.withLimit (some 10000)).run .steady (.passive none) 1 = some r ∧
      (FreeDraw.engine .echo |>.withLimit none).run .steady (.passive none) 1 = some r' ∧
      r.result = .ok report ∧ r'.result = .ok report ∧
      r'.snapshots.map Progress.unlimited = r.snapshots.map Progress.unlimited) := by
  have hclear : ∀ (limit : Option UInt64) (log : LogFilter) (e : Engine Script) s,
      e.cancelled = false → State.Reachable .steady (.passive log) (e.withLimit limit) s →
      s.engine.cancelled = false := by
    intro limit log e s hcancelled hs
    exact hs.cancelled_passive hcancelled
  constructor
  · have hle : LimitLE (some 1) (some 2) := by
      rintro limit ⟨⟩
      exact ⟨1, rfl, by decide⟩
    have hextends := run_extends .steady (.passive none) (.passive (some .trace)) Engine.stale hle
      (fun s hs => hclear _ _ _ s rfl hs) (fun s hs => hclear _ _ _ s rfl hs)
    have hstale : Engine.stale.withLimit (some 1) = Engine.stale := Engine.withLimit_self rfl
    rcases Engine.exists_run_stale with ⟨u, hrun, hclearEnd, hgeneration⟩
    rw [← hstale] at hrun
    have hends := hextends.2.1 2 rfl 3 (by decide)
    rcases Option.isSome_iff_exists.mp hends with ⟨r', hrun'⟩
    refine ⟨hle, _, r', hrun, hrun', rfl, ?_, hextends.1 _ _ _ _ hrun hrun'⟩
    rcases Engine.Run.stamps hrun hclearEnd with ⟨last, hstamps, hend⟩
    rcases hend with ⟨-, -, report, hreport, -⟩ | ⟨rfl, -, -⟩
    · cases hreport
    · rw [hstamps, hgeneration]
      rfl
  · have hle : LimitLE (some 10000) none := by
      rintro limit ⟨⟩
    have hextends := run_extends .steady (.passive none) (.passive none) (FreeDraw.engine .echo)
      hle (fun s hs => hclear _ _ _ s rfl hs) (fun s hs => hclear _ _ _ s rfl hs)
    have hecho : (FreeDraw.engine .echo).withLimit (some 10000) = FreeDraw.engine .echo :=
      Engine.withLimit_self rfl
    rcases FreeDraw.exists_run .echo with ⟨r, report, hrun, hresult, -⟩
    rw [← hecho] at hrun
    rcases hextends.2.2.2.1 1 r report hrun hresult with ⟨r', hrun', hresult', hsnapshots⟩
    exact ⟨hle, r, r', report, hrun, hrun', hresult, hresult', hsnapshots⟩

end TapeBreeder
