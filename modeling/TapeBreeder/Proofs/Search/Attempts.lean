import TapeBreeder.Proofs.Search.Cancellation
import TapeBreeder.Proofs.Search.FreeDraw
import TapeBreeder.Search.Supervisor

/-!
# Attempts of supervised searches

A supervisor draws one seed for each attempt, and begins another attempt only when the one before it
was exhausted. So what it comes to is settled by the first attempt that is not exhausted, if the
number of attempts allows for it. Settings that no search can begin with are refused whatever the
seed, so that such an error always comes from the first attempt.

* `seedAfter` — the seeds of the attempts, one after the other.
* `Supervisor.search` — what comes of a search that begins with a seed.
* `Supervisor.begun` — the number of attempts that are begun.
* `Supervisor.AttemptsTo` — the five things that can happen next, each with all of its guards.
* `Supervisor.EndsAfter` — the three ends of supervised searches that nobody cancels.
  `Supervisor.returns_iff` says that there are no others, and that all of them do happen.
* `supervised_attempts` — the results of supervised searches, by those of the attempts.
-/

namespace TapeBreeder

/-! ## Seeds -/

section

variable {σ : Type} [RandomSource σ]

/-- A source that some seeds have been drawn from. -/
def seedsDrawn (source : σ) : Nat → σ
  | 0 => source
  | n + 1 => (RandomSource.seed.run (seedsDrawn source n)).2

/-- The seed that is drawn after `n` others. -/
def seedAfter (source : σ) (n : Nat) : UInt64 :=
  (RandomSource.seed.run (seedsDrawn source n)).1

end

/-- What settings are refused for does not depend on the seed. -/
theorem Engine.create_eq_error {σ : Type} [SeededSource σ] {entropy : UInt64} {config : RunConfig}
    {inputs targets : List String} {error : SearchError}
    (h : (create entropy config inputs targets : Except SearchError (Engine σ)) = .error error) :
    (∀ generations, error ≠ .exhausted generations) ∧ (∀ n, error ≠ .retriesExhausted n) ∧
      ∀ (entropy' : UInt64) (seed : Option UInt64),
        (create entropy' { config with randomSeed := seed } inputs targets :
          Except SearchError (Engine σ)) = .error error := by
  have hvalidate : ∀ seed : Option UInt64,
      ({ config with randomSeed := seed } : RunConfig).validate = config.validate := by
    intro seed
    rfl
  unfold create at h ⊢
  simp only [hvalidate]
  cases hvalid : config.validate with
  | error fault =>
    rw [hvalid] at h
    cases h
    simp
  | ok _ =>
    rw [hvalid] at h
    dsimp only at h ⊢
    split at h
    · next hlength =>
      cases h
      simp [hlength]
    · next hlength =>
      split at h
      · next hempty =>
        cases h
        simp [hlength, hempty]
      · cases h

/-- Nobody has had a chance to cancel an engine that has just been created. -/
theorem Engine.cancelled_of_create {σ : Type} [SeededSource σ] {entropy : UInt64}
    {config : RunConfig} {inputs targets : List String} {e : Engine σ}
    (h : create entropy config inputs targets = .ok e) : e.cancelled = false := by
  unfold create at h
  split at h
  · cases h
  · split at h
    · cases h
    · split at h
      · cases h
      · cases h
        rfl

namespace Supervisor

/-! ## One attempt -/

section

variable (σ : Type) [SeededSource σ] (clock : Clock) (log : LogFilter) (s : Supervisor)
  (inputs targets : List String)

/-- What comes of the search that begins with a seed, within so many rounds. -/
def search (rounds : Nat) (seed : UInt64) : Option (Except SearchError Report) :=
  match (Engine.create seed { s.config with randomSeed := some seed } inputs targets :
    Except SearchError (Engine σ)) with
  | .error error => some (.error error)
  | .ok engine => (engine.run clock (.passive log) rounds).map (·.result)

/-- What the seeds of the attempts are drawn from. -/
def seeds (entropy : UInt64) : σ :=
  SeededSource.ofSeed (s.config.randomSeed.getD entropy)

/-- Whether supervised searches come to a result. -/
def Returns (entropy : UInt64) (result : Except SearchError SupervisedReport) : Prop :=
  ∃ rounds r, s.run σ clock log rounds entropy inputs targets = some r ∧ r.result = result

/-- Whether the attempt after `n` others comes to a result. -/
def EndsWith (source : σ) (n : Nat) (result : Except SearchError Report) : Prop :=
  ∃ rounds, s.search σ clock log inputs targets rounds (seedAfter source n) = some result

/-- Whether the attempt after `n` others is exhausted. -/
def IsExhausted (source : σ) (n : Nat) : Prop :=
  ∃ generations, s.EndsWith σ clock log inputs targets source n (.error (.exhausted generations))

/-- Whether another attempt is allowed after `attempts` attempts. -/
def HasLeft (attempts : Nat) : Prop :=
  s.maxAttempts = 0 ∨ attempts < s.maxAttempts

/-- The number of attempts that are begun, the first `attempts` ones apart. -/
def begun (engineRounds : Nat) : (rounds : Nat) → (seeds : σ) → (attempts : Nat) → Nat
  | 0, _, _ => 0
  | rounds + 1, seeds, attempts =>
    if s.maxAttempts ≠ 0 ∧ s.maxAttempts ≤ attempts then 0
    else if s.cancelled then 0
    else
      let (seed, seeds) := RandomSource.seed.run seeds
      1 + match s.search σ clock log inputs targets engineRounds seed with
        | some (.error (.exhausted _)) => begun engineRounds rounds seeds (attempts + 1)
        | _ => 0

/-- The number of attempts that a result of supervised searches tells of. An error that does not
count them is that of the only one. -/
def attemptsOf : Except SearchError SupervisedReport → Nat
  | .ok report => report.attempts
  | .error (.retriesExhausted n) => n
  | .error _ => 1

/-- What can happen with supervised searches that have made some attempts, drawing their seeds from
`source`, and how many more of them are begun. -/
inductive AttemptsTo (engineRounds rounds : Nat) (source : σ) (attempts : Nat) :
    Option Run → Nat → Prop where
  | spent {events : List Event} (hspent : ¬ s.HasLeft attempts) :
    AttemptsTo engineRounds rounds source attempts
      (some ⟨.error (.retriesExhausted attempts), events⟩) 0
  | cancelled {events : List Event} (hleft : s.HasLeft attempts) (hcancelled : s.cancelled = true) :
    AttemptsTo engineRounds rounds source attempts (some ⟨.error .cancelled, events⟩) 0
  | unfinished (hleft : s.HasLeft attempts) (hclear : s.cancelled = false)
      (hsearch : s.search σ clock log inputs targets engineRounds (seedAfter source attempts) =
        none) :
    AttemptsTo engineRounds rounds source attempts none 1
  | exhausted {answer : Option Run} {count generations : Nat} {events : List Event}
      (hleft : s.HasLeft attempts) (hclear : s.cancelled = false)
      (hsearch : s.search σ clock log inputs targets engineRounds (seedAfter source attempts) =
        some (.error (.exhausted generations)))
      (hrest : s.attempt σ clock log inputs targets engineRounds rounds
        (seedsDrawn source (attempts + 1)) (attempts + 1) events = answer)
      (hcount : s.begun σ clock log inputs targets engineRounds rounds
        (seedsDrawn source (attempts + 1)) (attempts + 1) = count) :
    AttemptsTo engineRounds rounds source attempts answer (1 + count)
  | settled {result : Except SearchError Report} {events : List Event}
      (hleft : s.HasLeft attempts) (hclear : s.cancelled = false)
      (hsearch : s.search σ clock log inputs targets engineRounds (seedAfter source attempts) =
        some result) (hsettled : ∀ generations, result ≠ .error (.exhausted generations)) :
    AttemptsTo engineRounds rounds source attempts
      (some ⟨result.map (SupervisedReport.mk (attempts + 1)), events⟩) 1

/-- How supervised searches end after `n` exhausted attempts, with the number of those begun. -/
inductive EndsAfter (source : σ) (n : Nat) : Except SearchError SupervisedReport → Nat → Prop where
  | spent (hspent : n = s.maxAttempts) (hpos : 0 < n) :
    EndsAfter source n (.error (.retriesExhausted n)) n
  | succeeded {report : Report} (hleft : s.HasLeft n)
      (hends : s.EndsWith σ clock log inputs targets source n (.ok report)) :
    EndsAfter source n (.ok ⟨n + 1, report⟩) (n + 1)
  | failed {error : SearchError} (hleft : s.HasLeft n)
      (hends : s.EndsWith σ clock log inputs targets source n (.error error))
      (hsettled : ∀ generations, error ≠ .exhausted generations) :
    EndsAfter source n (.error error) (n + 1)

end

variable {σ : Type} [SeededSource σ] {clock : Clock} {log : LogFilter} {s : Supervisor}
  {inputs targets : List String} {engineRounds rounds more attempts n : Nat} {seed : UInt64}
  {source seeds : σ} {events : List Event} {result : Except SearchError Report}
  {error : SearchError}

/-- The attempts are spent as the program tests it: there is a limit, and it has been reached. -/
theorem not_hasLeft_iff : ¬ s.HasLeft attempts ↔ s.maxAttempts ≠ 0 ∧ s.maxAttempts ≤ attempts := by
  rw [HasLeft, not_or, Nat.not_lt]

/-- An attempt whose settings are refused comes to a result without a search. -/
theorem search_of_create_error
    (h : (Engine.create seed { s.config with randomSeed := some seed } inputs targets :
      Except SearchError (Engine σ)) = .error error) :
    s.search σ clock log inputs targets rounds seed = some (.error error) := by
  rw [search, h]

/-- Any other attempt is the run of a new engine that nobody watches. -/
theorem search_of_create {e : Engine σ}
    (h : Engine.create seed { s.config with randomSeed := some seed } inputs targets = .ok e) :
    s.search σ clock log inputs targets rounds seed =
      (e.run clock (.passive log) rounds).map (·.result) := by
  rw [search, h]

/-- A result does not change with more rounds, so a number that is enough for one attempt is enough
in company. -/
theorem search_mono (h : s.search σ clock log inputs targets rounds seed = some result)
    (hle : rounds ≤ more) : s.search σ clock log inputs targets more seed = some result := by
  unfold search at h ⊢
  split at h
  · exact h
  · rcases Option.map_eq_some_iff.mp h with ⟨r, hrun, rfl⟩
    rw [Engine.run_mono hrun hle]
    rfl

/-- A search that is not exhausted fails with an error of its settings, and so it does with every
other seed. -/
theorem search_eq_error (h : s.search σ clock log inputs targets rounds seed = some (.error error))
    (hsettled : ∀ generations, error ≠ .exhausted generations) :
    (∀ n, error ≠ .retriesExhausted n) ∧ ∀ rounds seed,
      s.search σ clock log inputs targets rounds seed = some (.error error) := by
  cases hcreate : (Engine.create seed { s.config with randomSeed := some seed } inputs targets :
      Except SearchError (Engine σ)) with
  | error fault =>
    rw [search_of_create_error hcreate] at h
    cases h
    rcases Engine.create_eq_error hcreate with ⟨-, hretries, hevery⟩
    refine ⟨hretries, ?_⟩
    intro rounds seed
    exact search_of_create_error (hevery seed (some seed))
  | ok engine =>
    -- Nobody cancels the engine, so its run is exhausted if it fails.
    have hclear := Engine.cancelled_of_create hcreate
    rw [search_of_create hcreate] at h
    rcases Option.map_eq_some_iff.mp h with ⟨r, hrun, hresult⟩
    rcases Engine.Run.ok_or_exhausted hclear hrun with ⟨report, hok⟩ | ⟨limit, -, hexhausted⟩
    · rw [hok] at hresult
      cases hresult
    · rw [hexhausted] at hresult
      cases hresult
      exact absurd rfl (hsettled _)

/-! ## One attempt after the other -/

/-- All that one attempt can do, together with how many it adds to those begun. What follows goes by
these five cases and does not look at the loop again. -/
theorem attemptsTo_attempt (σ : Type) [SeededSource σ] (clock : Clock) (log : LogFilter)
    (s : Supervisor) (inputs targets : List String) (engineRounds rounds : Nat) (source : σ)
    (attempts : Nat) (events : List Event) :
    s.AttemptsTo σ clock log inputs targets engineRounds rounds source attempts
      (s.attempt σ clock log inputs targets engineRounds (rounds + 1) (seedsDrawn source attempts)
        attempts events)
      (s.begun σ clock log inputs targets engineRounds (rounds + 1) (seedsDrawn source attempts)
        attempts) := by
  rw [attempt, begun]
  -- The tests in the order of the program: whether attempts are left, whether they are cancelled,
  -- whether the settings are accepted, and how the search ends.
  split
  · next hspent => exact .spent (not_hasLeft_iff.mpr hspent)
  · next hopen =>
    have hleft : s.HasLeft attempts := by
      rwa [← not_hasLeft_iff, Classical.not_not] at hopen
    split
    · next hcancelled => exact .cancelled hleft hcancelled
    · next hgoes =>
      have hclear : s.cancelled = false := Bool.eq_false_iff.mpr hgoes
      have hdrawn : RandomSource.seed.run (seedsDrawn source attempts) =
          (seedAfter source attempts, seedsDrawn source (attempts + 1)) := rfl
      rw [hdrawn]
      dsimp only
      cases hcreate : (Engine.create (seedAfter source attempts)
          { s.config with randomSeed := some (seedAfter source attempts) } inputs targets :
            Except SearchError (Engine σ)) with
      | error error =>
        have hsettled := (Engine.create_eq_error hcreate).1
        rw [search_of_create_error hcreate]
        cases error with
        | exhausted generations => exact absurd rfl (hsettled generations)
        | _ => exact .settled hleft hclear (search_of_create_error hcreate) (by simp)
      | ok engine =>
        have hsearch : s.search σ clock log inputs targets engineRounds _ = _ :=
          search_of_create hcreate
        dsimp only
        cases hrun : engine.run clock (.passive log) engineRounds with
        | none =>
          rw [hrun, Option.map_none] at hsearch
          rw [hsearch]
          exact .unfinished hleft hclear hsearch
        | some r =>
          rw [hrun, Option.map_some] at hsearch
          rw [hsearch]
          dsimp only
          cases hresult : r.result with
          | ok report =>
            rw [hresult] at hsearch
            exact .settled hleft hclear hsearch (by simp)
          | error error =>
            rw [hresult] at hsearch
            cases error with
            | exhausted generations => exact .exhausted hleft hclear hsearch rfl rfl
            | _ => exact .settled hleft hclear hsearch (by simp)

/-- The same for an answer and a count that have been given names, so that `cases` applies to
them. -/
theorem attemptsTo_of_attempt {answer : Option Run} {count : Nat}
    (hanswer : s.attempt σ clock log inputs targets engineRounds (rounds + 1)
      (seedsDrawn source attempts) attempts events = answer)
    (hcount : s.begun σ clock log inputs targets engineRounds (rounds + 1)
      (seedsDrawn source attempts) attempts = count) :
    s.AttemptsTo σ clock log inputs targets engineRounds rounds source attempts answer count := by
  rw [← hanswer, ← hcount]
  exact attemptsTo_attempt σ clock log s inputs targets engineRounds rounds source attempts events

/-! ## All attempts -/

/-- Supervised searches that come to a result have gone on for as long as their attempts were
exhausted. -/
theorem exists_endsAfter {r : Run} {count : Nat} (hclear : s.cancelled = false)
    (hbefore : ∀ i < attempts, s.IsExhausted σ clock log inputs targets source i)
    (hallowed : s.maxAttempts = 0 ∨ attempts ≤ s.maxAttempts)
    (hanswer : s.attempt σ clock log inputs targets engineRounds rounds (seedsDrawn source attempts)
      attempts events = some r)
    (hcount : s.begun σ clock log inputs targets engineRounds rounds (seedsDrawn source attempts)
      attempts = count) :
    ∃ n, (∀ i < n, s.IsExhausted σ clock log inputs targets source i) ∧
      s.EndsAfter σ clock log inputs targets source n r.result (attempts + count) := by
  -- Each exhausted attempt takes a round and leaves the rest to the others; the invariant is that
  -- all before have been exhausted.
  induction rounds generalizing attempts events count with
  | zero =>
    rw [attempt] at hanswer
    cases hanswer
  | succ rounds ih =>
    cases attemptsTo_of_attempt hanswer hcount with
    | spent hspent =>
      have hlimit := not_hasLeft_iff.mp hspent
      refine ⟨attempts, hbefore, .spent ?_ ?_⟩ <;> omega
    | cancelled _ hcancelled =>
      rw [hclear] at hcancelled
      cases hcancelled
    | exhausted hleft _ hsearch hrest hrestCount =>
      have hthis : ∀ i < attempts + 1, s.IsExhausted σ clock log inputs targets source i := by
        intro i hi
        rcases Nat.lt_succ_iff_lt_or_eq.mp hi with hi | rfl
        · exact hbefore i hi
        · exact ⟨_, _, hsearch⟩
      have hallowed : s.maxAttempts = 0 ∨ attempts + 1 ≤ s.maxAttempts := hleft
      rw [← Nat.add_assoc]
      exact ih hthis hallowed hrest hrestCount
    | @settled result _ hleft _ hsearch hsettled =>
      refine ⟨attempts, hbefore, ?_⟩
      cases result with
      | ok report => exact .succeeded hleft ⟨_, hsearch⟩
      | error error =>
        apply EndsAfter.failed hleft ⟨_, hsearch⟩
        intro generations hexhausted
        exact hsettled generations (congrArg Except.error hexhausted)

theorem attempt_of_spent (hspent : ¬ s.HasLeft attempts) :
    ∃ r, s.attempt σ clock log inputs targets engineRounds (rounds + 1) (seedsDrawn source attempts)
        attempts events = some r ∧ r.result = .error (.retriesExhausted attempts) := by
  rw [attempt, if_pos (not_hasLeft_iff.mp hspent)]
  exact ⟨_, rfl, rfl⟩

/-- An attempt that comes to a result is followed by another one or settles the searches. -/
theorem attempt_of_search (hclear : s.cancelled = false) (hleft : s.HasLeft attempts)
    (hresult : s.search σ clock log inputs targets engineRounds (seedAfter source attempts) =
      some result) :
    (∃ generations later, result = .error (.exhausted generations) ∧
      s.attempt σ clock log inputs targets engineRounds (rounds + 1) (seedsDrawn source attempts)
        attempts events =
      s.attempt σ clock log inputs targets engineRounds rounds (seedsDrawn source (attempts + 1))
        (attempts + 1) later) ∨
    ((∀ generations, result ≠ .error (.exhausted generations)) ∧ ∃ r,
      s.attempt σ clock log inputs targets engineRounds (rounds + 1) (seedsDrawn source attempts)
        attempts events = some r ∧ r.result = result.map (SupervisedReport.mk (attempts + 1))) := by
  generalize hanswer : s.attempt σ clock log inputs targets engineRounds (rounds + 1) _ _ _ = answer
  obtain ⟨count, hcount⟩ : ∃ count, s.begun σ clock log inputs targets engineRounds (rounds + 1)
    (seedsDrawn source attempts) attempts = count := ⟨_, rfl⟩
  -- That there is a result leaves two of the five cases.
  cases attemptsTo_of_attempt hanswer hcount with
  | spent hspent => exact absurd hleft hspent
  | cancelled _ hcancelled =>
    rw [hclear] at hcancelled
    cases hcancelled
  | unfinished _ _ hsearch =>
    rw [hresult] at hsearch
    cases hsearch
  | exhausted _ _ hsearch hrest _ =>
    rw [hresult] at hsearch
    exact .inl ⟨_, _, Option.some.inj hsearch, hrest.symm⟩
  | settled _ _ hsearch hsettled =>
    rw [hresult] at hsearch
    obtain rfl := Option.some.inj hsearch
    exact .inr ⟨hsettled, _, rfl, rfl⟩

/-- There are rounds enough for any number of attempts that are exhausted. -/
theorem exists_rounds (h : ∀ i < n, s.IsExhausted σ clock log inputs targets source i) :
    ∃ rounds, ∀ i < n, ∃ generations, s.search σ clock log inputs targets rounds
      (seedAfter source i) = some (.error (.exhausted generations)) := by
  induction n with
  | zero => exact ⟨0, fun i hi => absurd hi (Nat.not_lt_zero i)⟩
  | succ n ih =>
    rcases ih fun i hi => h i (Nat.lt_succ_of_lt hi) with ⟨before, hbefore⟩
    rcases h n (Nat.lt_succ_self n) with ⟨last, rounds, hlast⟩
    refine ⟨before + rounds, ?_⟩
    intro i hi
    rcases Nat.lt_succ_iff_lt_or_eq.mp hi with hi | rfl
    · rcases hbefore i hi with ⟨generations, hsearch⟩
      exact ⟨generations, search_mono hsearch (Nat.le_add_right _ _)⟩
    · exact ⟨last, search_mono hlast (Nat.le_add_left _ _)⟩

/-- As long as attempts are allowed and exhausted, supervised searches come to the next one. -/
theorem exists_attempt_eq (hclear : s.cancelled = false)
    (hallowed : s.maxAttempts = 0 ∨ n ≤ s.maxAttempts)
    (hexhausted : ∀ i < n, ∃ generations, s.search σ clock log inputs targets engineRounds
      (seedAfter source i) = some (.error (.exhausted generations))) (left : Nat) :
    ∃ later, s.attempt σ clock log inputs targets engineRounds (n + left) source 0 events =
      s.attempt σ clock log inputs targets engineRounds left (seedsDrawn source n) n later := by
  -- On the number of exhausted attempts: one more leaves a round less.
  induction n generalizing left with
  | zero =>
    rw [Nat.zero_add]
    exact ⟨events, rfl⟩
  | succ n ih =>
    have hbefore : s.maxAttempts = 0 ∨ n ≤ s.maxAttempts := by omega
    have hleft : s.HasLeft n := hallowed
    rcases ih hbefore (fun i hi => hexhausted i (Nat.lt_succ_of_lt hi)) (left + 1) with
      ⟨later, hattempt⟩
    rcases hexhausted n (Nat.lt_succ_self n) with ⟨generations, hsearch⟩
    rw [Nat.add_assoc, Nat.add_comm 1, hattempt]
    rcases attempt_of_search hclear hleft hsearch with ⟨-, last, -, hlast⟩ | ⟨hsettled, -⟩
    · exact ⟨last, hlast⟩
    · exact absurd rfl (hsettled generations)

/-- Supervised searches that may go on after `n` attempts do end. -/
theorem exists_run_of_endsAfter {answer : Except SearchError SupervisedReport} {count : Nat}
    (hclear : s.cancelled = false)
    (hbefore : ∀ i < n, s.IsExhausted σ clock log inputs targets source i)
    (hends : s.EndsAfter σ clock log inputs targets source n answer count) :
    ∃ rounds r, s.attempt σ clock log inputs targets rounds rounds source 0 [] = some r ∧
      r.result = answer := by
  rcases exists_rounds hbefore with ⟨before, hbefore⟩
  -- With rounds enough for each attempt and for all of them, the searches come to the last one.
  have hcomes : (s.maxAttempts = 0 ∨ n ≤ s.maxAttempts) → ∀ last, ∃ later,
      s.attempt σ clock log inputs targets (n + (before + last + 1)) (n + (before + last + 1))
        source 0 [] =
      s.attempt σ clock log inputs targets (n + (before + last + 1)) (before + last + 1)
        (seedsDrawn source n) n later := by
    intro hallowed last
    apply exists_attempt_eq hclear hallowed
    intro i hi
    rcases hbefore i hi with ⟨generations, hsearch⟩
    exact ⟨generations, search_mono hsearch (by omega)⟩
  have hsettles : ∀ result, s.HasLeft n → s.EndsWith σ clock log inputs targets source n result →
      (∀ generations, result ≠ .error (.exhausted generations)) →
      ∃ rounds r, s.attempt σ clock log inputs targets rounds rounds source 0 [] = some r ∧
        r.result = result.map (SupervisedReport.mk (n + 1)) := by
    rintro result hleft ⟨last, hsearch⟩ hsettled
    have hlast : last ≤ n + (before + last + 1) := by omega
    rcases hcomes (hleft.imp_right Nat.le_of_lt) last with ⟨later, hattempt⟩
    refine ⟨n + (before + last + 1), ?_⟩
    rw [hattempt]
    rcases attempt_of_search hclear hleft (search_mono hsearch hlast) with
      ⟨generations, -, hexhausted, -⟩ | ⟨-, hend⟩
    · exact absurd hexhausted (hsettled generations)
    · exact hend
  cases hends with
  | spent hspent hpos =>
    have hlimit : ¬ s.HasLeft n := not_hasLeft_iff.mpr (by omega)
    rcases hcomes (.inr (Nat.le_of_eq hspent)) 0 with ⟨later, hattempt⟩
    refine ⟨n + (before + 0 + 1), ?_⟩
    rw [hattempt]
    exact attempt_of_spent hlimit
  | succeeded hleft hends => exact hsettles _ hleft hends (by simp)
  | failed hleft hends hsettled => exact hsettles _ hleft hends (by simpa using hsettled)

/-- A run begins with no attempts behind it. -/
theorem exists_endsAfter_of_run {entropy : UInt64} {r : Run} (hclear : s.cancelled = false)
    (hrun : s.run σ clock log rounds entropy inputs targets = some r) :
    ∃ n, (∀ i < n, s.IsExhausted σ clock log inputs targets (s.seeds σ entropy) i) ∧
      s.EndsAfter σ clock log inputs targets (s.seeds σ entropy) n r.result
        (s.begun σ clock log inputs targets rounds rounds (s.seeds σ entropy) 0) := by
  have hnone : ∀ i < 0, s.IsExhausted σ clock log inputs targets (s.seeds σ entropy) i := by
    intro i hi
    exact absurd hi (Nat.not_lt_zero i)
  rcases exists_endsAfter hclear hnone (.inr (Nat.zero_le _)) hrun rfl with ⟨n, hbefore, hends⟩
  rw [Nat.zero_add] at hends
  exact ⟨n, hbefore, hends⟩

/-- Supervised searches return a result exactly if it ends a row of exhausted attempts. One
direction counts the rounds of a run, and the other finds enough of them. -/
theorem returns_iff {entropy : UInt64} {answer : Except SearchError SupervisedReport}
    (hclear : s.cancelled = false) :
    s.Returns σ clock log inputs targets entropy answer ↔
      ∃ n count, (∀ i < n, s.IsExhausted σ clock log inputs targets (s.seeds σ entropy) i) ∧
        s.EndsAfter σ clock log inputs targets (s.seeds σ entropy) n answer count := by
  constructor
  · rintro ⟨rounds, r, hrun, rfl⟩
    rcases exists_endsAfter_of_run hclear hrun with ⟨n, hbefore, hends⟩
    exact ⟨n, _, hbefore, hends⟩
  · rintro ⟨n, count, hbefore, hends⟩
    exact exists_run_of_endsAfter hclear hbefore hends

/-- An attempt that fails otherwise than by being exhausted is the first one. -/
theorem EndsWith.eq_zero (hbefore : ∀ i < n, s.IsExhausted σ clock log inputs targets source i)
    (h : s.EndsWith σ clock log inputs targets source n (.error error))
    (hsettled : ∀ generations, error ≠ .exhausted generations) :
    n = 0 ∧ ∀ m, error ≠ .retriesExhausted m := by
  rcases h with ⟨rounds, hsearch⟩
  rcases search_eq_error hsearch hsettled with ⟨hretries, hevery⟩
  refine ⟨?_, hretries⟩
  apply Nat.eq_zero_of_not_pos
  intro hpos
  -- The first attempt was exhausted, and yet its settings would have been refused as well.
  rcases hbefore 0 hpos with ⟨generations, rounds, hfirst⟩
  rw [hevery] at hfirst
  cases hfirst
  exact hsettled generations rfl

/-- The attempts that are begun are told by the result. -/
theorem EndsAfter.count_eq {answer : Except SearchError SupervisedReport} {count : Nat}
    (hbefore : ∀ i < n, s.IsExhausted σ clock log inputs targets source i)
    (h : s.EndsAfter σ clock log inputs targets source n answer count) :
    count = attemptsOf answer := by
  cases h with
  | spent _ _ => rfl
  | succeeded _ _ => rfl
  | @failed error _ hends hsettled =>
    rcases hends.eq_zero hbefore hsettled with ⟨rfl, hretries⟩
    cases error with
    | retriesExhausted m => exact absurd rfl (hretries m)
    | _ => rfl

/-! ## Results -/

section

variable {entropy : UInt64}

/-- A report is returned with the number of its attempt, which is allowed and comes after exhausted
ones only. -/
theorem returns_ok_iff (hclear : s.cancelled = false) {k : Nat} {report : Report} :
    s.Returns σ clock log inputs targets entropy (.ok ⟨k, report⟩) ↔
      ∃ n, k = n + 1 ∧
        (∀ i < n, s.IsExhausted σ clock log inputs targets (s.seeds σ entropy) i) ∧
        s.EndsWith σ clock log inputs targets (s.seeds σ entropy) n (.ok report) ∧
        (s.maxAttempts = 0 ∨ k ≤ s.maxAttempts) := by
  rw [returns_iff hclear]
  constructor
  · rintro ⟨n, count, hbefore, hends⟩
    -- Only one of the ends returns a report.
    cases hends with
    | succeeded hleft hends => exact ⟨n, rfl, hbefore, hends, hleft⟩
  · rintro ⟨n, rfl, hbefore, hends, hleft⟩
    exact ⟨n, n + 1, hbefore, .succeeded hleft hends⟩

/-- Giving up takes a limit and as many exhausted attempts. No attempt fails in this way by
itself. -/
theorem returns_retriesExhausted_iff (hclear : s.cancelled = false) :
    s.Returns σ clock log inputs targets entropy (.error (.retriesExhausted n)) ↔
      n = s.maxAttempts ∧ 0 < n ∧
        ∀ i < n, s.IsExhausted σ clock log inputs targets (s.seeds σ entropy) i := by
  rw [returns_iff hclear]
  constructor
  · rintro ⟨m, count, hbefore, hends⟩
    cases hends with
    | spent hspent hpos => exact ⟨hspent, hpos, hbefore⟩
    | failed _ hends _ => exact absurd rfl ((hends.eq_zero hbefore (by simp)).2 n)
  · rintro ⟨hspent, hpos, hbefore⟩
    exact ⟨n, n, hbefore, .spent hspent hpos⟩

/-- What supervised searches fail with otherwise is the error of their first attempt. -/
theorem returns_error_iff (hclear : s.cancelled = false)
    (hretries : ∀ n, error ≠ .retriesExhausted n) :
    s.Returns σ clock log inputs targets entropy (.error error) ↔
      s.EndsWith σ clock log inputs targets (s.seeds σ entropy) 0 (.error error) ∧
        ∀ generations, error ≠ .exhausted generations := by
  rw [returns_iff hclear]
  constructor
  · rintro ⟨n, count, hbefore, hends⟩
    cases hends with
    | spent _ _ => exact absurd rfl (hretries n)
    | failed _ hends hsettled =>
      obtain rfl := (hends.eq_zero hbefore hsettled).1
      exact ⟨hends, hsettled⟩
  · rintro ⟨hends, hsettled⟩
    have hleft : s.HasLeft 0 := Nat.eq_zero_or_pos s.maxAttempts
    exact ⟨0, 1, fun i hi => absurd hi (Nat.not_lt_zero i), .failed hleft hends hsettled⟩

end

end Supervisor

/-- The results of supervised searches, by those of the attempts, whose seeds are drawn one after
the other from the source that the seed of the settings, or else `entropy`, begins. If nobody
cancels them, they return the report of the first attempt that is not exhausted, numbered from one,
as long as that many attempts are allowed; they give up exactly when there is a limit and that many
attempts were exhausted; and what else they fail with is the error of the first attempt. As many
attempts are begun as the result tells of, and one where the error is another one. If they have been
cancelled beforehand, they fail without beginning any, whatever the settings are. -/
theorem supervised_attempts (σ : Type) [SeededSource σ] (clock : Clock) (log : LogFilter)
    (s : Supervisor) (entropy : UInt64) (inputs targets : List String) :
    (s.cancelled = false →
      (∀ k report, s.Returns σ clock log inputs targets entropy (.ok ⟨k, report⟩) ↔
        ∃ n, k = n + 1 ∧
          (∀ i < n, s.IsExhausted σ clock log inputs targets (s.seeds σ entropy) i) ∧
          s.EndsWith σ clock log inputs targets (s.seeds σ entropy) n (.ok report) ∧
          (s.maxAttempts = 0 ∨ k ≤ s.maxAttempts)) ∧
      (∀ n, s.Returns σ clock log inputs targets entropy (.error (.retriesExhausted n)) ↔
        n = s.maxAttempts ∧ 0 < n ∧
          ∀ i < n, s.IsExhausted σ clock log inputs targets (s.seeds σ entropy) i) ∧
      (∀ error, (∀ n, error ≠ .retriesExhausted n) →
        (s.Returns σ clock log inputs targets entropy (.error error) ↔
          s.EndsWith σ clock log inputs targets (s.seeds σ entropy) 0 (.error error) ∧
            ∀ generations, error ≠ .exhausted generations)) ∧
      (∀ rounds r, s.run σ clock log rounds entropy inputs targets = some r →
        s.begun σ clock log inputs targets rounds rounds (s.seeds σ entropy) 0 =
          Supervisor.attemptsOf r.result)) ∧
    (s.cancelled = true → ∀ rounds,
      s.run σ clock log (rounds + 1) entropy inputs targets = some ⟨.error .cancelled, []⟩ ∧
      s.begun σ clock log inputs targets (rounds + 1) (rounds + 1) (s.seeds σ entropy) 0 = 0) := by
  constructor
  · intro hclear
    refine ⟨?_, ?_, ?_, ?_⟩
    · intro k report
      exact Supervisor.returns_ok_iff hclear
    · intro n
      exact Supervisor.returns_retriesExhausted_iff hclear
    · intro error hretries
      exact Supervisor.returns_error_iff hclear hretries
    · intro rounds r hrun
      rcases Supervisor.exists_endsAfter_of_run hclear hrun with ⟨n, hbefore, hends⟩
      exact hends.count_eq hbefore
  · intro hcancelled rounds
    -- No limit is reached before the first attempt, so it is the flag that is looked at.
    have hfirst : ¬ (s.maxAttempts ≠ 0 ∧ s.maxAttempts ≤ 0) := by omega
    constructor
    · rw [Supervisor.run, Supervisor.attempt, if_neg hfirst, if_pos hcancelled]
    · rw [Supervisor.begun, if_neg hfirst, if_pos hcancelled]

/-- A script that begins with a seed plays back a zero and then the seed. -/
instance : SeededSource Script where
  ofSeed seed := ⟨[0, seed.toNat]⟩

/-- Supervised searches whose attempts are limited to one generation of two programs. -/
def Supervisor.again (maxAttempts : Nat) : Supervisor where
  config :=
    { evolve := { populationSize := 2, initialProgramSize := 1, generationLimit := some 1 }
      randomSeed := some 4 }
  maxAttempts
  cancelled := false

/-- The engine of an attempt with some seed. -/
def Engine.again (seed : UInt64) : Engine Script where
  config := { (Supervisor.again 0).config with randomSeed := some seed }
  examples := [⟨"", "\x00"⟩]
  source := ⟨[0, seed.toNat]⟩
  generation := 0
  stagnation := .start 10
  cancelled := false

/-- The settings are accepted for each seed, which is all that the attempts differ in. -/
theorem Engine.create_again (maxAttempts : Nat) (seed : UInt64) :
    (create seed { (Supervisor.again maxAttempts).config with randomSeed := some seed } [""]
      ["\x00"] : Except SearchError (Engine Script)) = .ok (.again seed) := by
  have hvalid : ({ (Supervisor.again maxAttempts).config with randomSeed := some seed } :
      RunConfig).validate = .ok () := by
    apply RunConfig.validate_eq_ok <;> dsimp only [Supervisor.again]
    · decide
    · decide +kernel
    · decide +kernel
    · decide
    · decide
    · decide
  rw [create, hvalid]
  rfl

/-- So an attempt is the run of the engine with its seed. -/
theorem Supervisor.search_again (maxAttempts rounds : Nat) (seed : UInt64) :
    (again maxAttempts).search Script .steady none [""] ["\x00"] rounds seed =
      ((Engine.again seed).run .steady (.passive none) rounds).map (·.result) := by
  rw [search_of_create (Engine.create_again maxAttempts seed)]

/-- The first seed draws two programs that print nothing, so the attempt is exhausted. -/
theorem Engine.population_start_again_zero :
    (State.start (.passive none) (Engine.again 0)).population =
      [⟨[.increment]⟩, ⟨[.increment]⟩] := by
  rw [State.population_start_of_one rfl (by decide)]
  rfl

/-- The second seed draws a program that prints the target, at the second place. -/
theorem Engine.population_start_again_four :
    (State.start (.passive none) (Engine.again 4)).population = [⟨[.increment]⟩, ⟨[.output]⟩] := by
  rw [State.population_start_of_one rfl (by decide)]
  rfl

/-- The first seed is zero, and its attempt is exhausted; the second one is four, and its attempt
finds a program that prints a character with code point zero. So it depends on the number of
attempts what comes of them. Searches that have been cancelled do not look at their settings. -/
theorem supervised_attempts_again :
    (Supervisor.again 2).cancelled = false ∧ (Supervisor.again 1).cancelled = false ∧
      (∃ report, (Supervisor.again 2).Returns Script .steady none [""] ["\x00"] 0
        (.ok ⟨2, report⟩)) ∧
      (Supervisor.again 1).Returns Script .steady none [""] ["\x00"] 0
        (.error (.retriesExhausted 1)) ∧
      ({ evolve := { populationSize := 0 } } : RunConfig).validate = .error .populationTooSmall ∧
      (⟨{ evolve := { populationSize := 0 } }, 0, true⟩ : Supervisor).run Script .steady none 1 0 []
        [] = some ⟨.error .cancelled, []⟩ := by
  have hexhausted : ∀ maxAttempts, ∀ i < 1, (Supervisor.again maxAttempts).IsExhausted Script
      .steady none [""] ["\x00"] ((Supervisor.again maxAttempts).seeds Script 0) i := by
    intro maxAttempts i hi
    obtain rfl : i = 0 := by omega
    have hwinner : ((State.start (.passive none) (Engine.again 0)).evaluate .steady).winner =
        none := by
      unfold State.evaluate
      rw [Engine.population_start_again_zero]
      decide
    rcases Engine.exists_run_of_no_winner rfl rfl hwinner with ⟨u, hrun, -⟩
    refine ⟨1, 2, (Supervisor.search_again maxAttempts 2 0).trans ?_⟩
    rw [hrun]
    rfl
  have hsucceeds : ∃ report, (Supervisor.again 2).EndsWith Script .steady none [""] ["\x00"]
      ((Supervisor.again 2).seeds Script 0) 1 (.ok report) := by
    have hwinner : ((State.start (.passive none) (Engine.again 4)).evaluate .steady).winner =
        some ⟨[.output]⟩ := by
      unfold State.evaluate
      rw [Engine.population_start_again_four]
      decide
    rcases Engine.exists_run_of_winner rfl rfl hwinner with ⟨r, hrun, hresult⟩
    refine ⟨(State.start (.passive none) (Engine.again 4)).engine.report .steady ⟨[.output]⟩, 1,
      (Supervisor.search_again 2 1 4).trans ?_⟩
    rw [hrun, Option.map_some, hresult]
  rcases hsucceeds with ⟨report, hsucceeds⟩
  have hclear : ∀ maxAttempts, (Supervisor.again maxAttempts).cancelled = false := fun _ => rfl
  have htwo := ((supervised_attempts Script .steady none (.again 2) 0 [""] ["\x00"]).1
    (hclear 2)).1 2 report
  have hone := ((supervised_attempts Script .steady none (.again 1) 0 [""] ["\x00"]).1
    (hclear 1)).2.1 1
  have hcancelled := (supervised_attempts Script .steady none
    ⟨{ evolve := { populationSize := 0 } }, 0, true⟩ 0 [] []).2 rfl 0
  refine ⟨hclear 2, hclear 1, ⟨report, ?_⟩, ?_, rfl, hcancelled.1⟩
  · exact htwo.mpr ⟨1, rfl, hexhausted 2, hsucceeds, .inr (Nat.le_refl 2)⟩
  · exact hone.mpr ⟨rfl, Nat.one_pos, hexhausted 1⟩

end TapeBreeder
