import Mathlib.Tactic.Common
import TapeBreeder.Config.Record
import TapeBreeder.Proofs.Config.Edits

/-!
# Configurations read back

A configuration that has been written is read back as it was, and where fields have been left out,
they have their defaults.

* `Binary64.ReadsBack` — whether a double survives being written. Doubles with many digits may not,
  because reading rounds twice.
* `PenaltyTable.reads`, `CostOptions.reads`, `EvolveOptions.reads`, `MutateOptions.reads`,
  `RunConfig.reads` — each group of settings, by its fields.
* `RunConfig.withDefaults` — a configuration with defaults for some of its fields.
* `read_edited` — what is read of the text of an edited configuration.
-/

namespace TapeBreeder

open Json

/-! ## Scalars -/

/-- A number that is in range is read as it was written. The types of settings differ by the bound
only. -/
theorem natBelow?_nat {n bound : Nat} (h : n < bound) : (nat n).natBelow? bound = some n := by
  show (Number.ofNat n).natural?.filter (· < bound) = some n
  rw [Number.natural?_ofNat]
  exact Option.filter_eq_some_iff.mpr ⟨rfl, decide_eq_true h⟩

/-- A charge is written as its amount, which is never above the limit that its reader checks. -/
theorem Charge.reads (c : Charge) (omitted : FieldSet) :
    Reads Charge.ofJson? (c.toJson.delete omitted) c := by
  have hread : Charge.ofJson? c.toJson = some c := by
    rw [ofJson?, toJson, natBelow?_nat (Nat.lt_succ_of_le c.amount_le), Option.map_some,
      ofNat_amount]
  exact reads_of_isScalar rfl hread omitted

theorem reads_uint64 (n : UInt64) (omitted : FieldSet) :
    Reads uint64? ((uint64ToJson n).delete omitted) n := by
  have hread : (uint64ToJson n).uint64? = some n := by
    rw [uint64?, uint64ToJson, natBelow?_nat n.toNat_lt_size, Option.map_some, UInt64.ofNat_toNat]
  exact reads_of_isScalar rfl hread omitted

theorem reads_uint32 (n : UInt32) (omitted : FieldSet) :
    Reads uint32? ((uint32ToJson n).delete omitted) n := by
  have hread : (uint32ToJson n).uint32? = some n := by
    rw [uint32?, uint32ToJson, natBelow?_nat n.toNat_lt_size, Option.map_some, UInt32.ofNat_toNat]
  exact reads_of_isScalar rfl hread omitted

theorem reads_bool (b : Bool) (omitted : FieldSet) :
    Reads bool? ((Json.bool b).delete omitted) b := by
  have hread : (Json.bool b).bool? = some b := rfl
  exact reads_of_isScalar rfl hread omitted

/-- An absent number is `null`, which no number is. -/
theorem reads_nullable_uint64 (n : Option UInt64) (omitted : FieldSet) :
    Reads (nullable uint64?) ((option uint64ToJson n).delete omitted) n := by
  cases n with
  | none =>
    have hread : nullable uint64? null = some none := rfl
    exact reads_of_isScalar rfl hread omitted
  | some n =>
    have hnumber : (uint64ToJson n).uint64? = some n := reads_uint64 n omitted _ (.refl _)
    have hread : nullable uint64? (uint64ToJson n) = some (some n) := by
      show ((uint64ToJson n).uint64?).map some = some (some n)
      rw [hnumber, Option.map_some]
    exact reads_of_isScalar rfl hread omitted

/-- The names of the policies differ, so each is read as the policy that it was written for. -/
theorem CostPolicy.reads (policy : CostPolicy) (omitted : FieldSet) :
    Reads CostPolicy.ofJson? ((str policy.name).delete omitted) policy := by
  have hread : CostPolicy.ofJson? (str policy.name) = some policy := by
    cases policy <;> rfl
  exact reads_of_isScalar rfl hread omitted

theorem TimeoutPolicy.reads (policy : TimeoutPolicy) (omitted : FieldSet) :
    Reads TimeoutPolicy.ofJson? ((str policy.name).delete omitted) policy := by
  have hread : TimeoutPolicy.ofJson? (str policy.name) = some policy := by
    cases policy <;> rfl
  exact reads_of_isScalar rfl hread omitted

/-- Whether a double is read back from its literal. One that is not finite has none. -/
def Binary64.ReadsBack (x : Binary64) : Prop :=
  ofJson? x.literal = some x

-- The double right below one is written as 0.9999999999999999, which is read as one.
example : ¬ (Binary64.ofFraction (2 ^ 53 - 1)).ReadsBack := by
  unfold Binary64.ReadsBack
  decide +kernel

/-- A double is the only setting for which being read back is a condition; edits cannot make it
worse. -/
theorem Binary64.ReadsBack.reads {x : Binary64} (h : x.ReadsBack) (omitted : FieldSet) :
    Reads Binary64.ofJson? (x.literal.delete omitted) x := by
  have hscalar : x.literal.isScalar := by
    cases x <;> rfl
  exact reads_of_isScalar hscalar h omitted

/-! ## Groups of settings -/

/-- A penalty table with defaults for some of its fields. -/
def PenaltyTable.withDefaults (omitted : FieldSet) (t : PenaltyTable) : PenaltyTable :=
  let standard : PenaltyTable := {}
  { timeout := omitted.choose "timeout" standard.timeout t.timeout
    noOutput := omitted.choose "no_output" standard.noOutput t.noOutput
    nonAscii := omitted.choose "non_ascii" standard.nonAscii t.nonAscii
    tooShort := omitted.choose "too_short" standard.tooShort t.tooShort
    tooLong := omitted.choose "too_long" standard.tooLong t.tooLong
    wrongChar := omitted.choose "wrong_char" standard.wrongChar t.wrongChar
    extraChar := omitted.choose "extra_char" standard.extraChar t.extraChar
    missingChar := omitted.choose "missing_char" standard.missingChar t.missingChar
    nonIntersection :=
      omitted.choose "non_intersection" standard.nonIntersection t.nonIntersection
    notEqual := omitted.choose "not_equal" standard.notEqual t.notEqual }

/-- An edited penalty table is read as the table with defaults in place of what was left out. It is
the first of the groups, whose fields are charges and nothing else. -/
theorem PenaltyTable.reads (t : PenaltyTable) (omitted : FieldSet) :
    Reads PenaltyTable.ofJson? (t.toJson.delete omitted) (t.withDefaults omitted) := by
  intro value hvalue
  have hnodup : fieldNames.Nodup := by decide
  -- A slot for each field first. How a field is read, or what its default is, is one lemma by type.
  rcases exists_slots hnodup hvalue rfl with ⟨slot, hslots, hshown⟩
  simp only [List.forall_mem_cons] at hshown
  rcases hshown with ⟨htimeout, hnoOutput, hnonAscii, htooShort, htooLong, hwrongChar, hextraChar,
    hmissingChar, hnonIntersection, hnotEqual, -⟩
  simp only [ofJson?, withDefaults, hslots, Option.bind_eq_bind, Option.bind_some, Option.pure_def,
    htimeout.default_eq (Charge.reads _ _), hnoOutput.default_eq (Charge.reads _ _),
    hnonAscii.default_eq (Charge.reads _ _), htooShort.default_eq (Charge.reads _ _),
    htooLong.default_eq (Charge.reads _ _), hwrongChar.default_eq (Charge.reads _ _),
    hextraChar.default_eq (Charge.reads _ _), hmissingChar.default_eq (Charge.reads _ _),
    hnonIntersection.default_eq (Charge.reads _ _), hnotEqual.default_eq (Charge.reads _ _)]

/-- Scoring settings with defaults for some of their fields. -/
def CostOptions.withDefaults (omitted : FieldSet) (o : CostOptions) : CostOptions :=
  let standard : CostOptions := {}
  { timeoutMs := omitted.choose "program_timeout_ms" standard.timeoutMs o.timeoutMs
    penalties := omitted.choose "penalties" standard.penalties
      (o.penalties.withDefaults (omitted.below "penalties"))
    asciiOnly := omitted.choose "ascii_only" standard.asciiOnly o.asciiOnly
    timeCost := omitted.choose "time_cost" standard.timeCost o.timeCost
    policy := omitted.choose "policy" standard.policy o.policy
    timeoutPolicy := omitted.choose "timeout_policy" standard.timeoutPolicy o.timeoutPolicy }

/-- Scoring settings hold the penalty table, so that what is left out within that table is followed
one level down. -/
theorem CostOptions.reads (o : CostOptions) (omitted : FieldSet) :
    Reads CostOptions.ofJson? (o.toJson.delete omitted) (o.withDefaults omitted) := by
  intro value hvalue
  have hnodup : fieldNames.Nodup := by decide
  rcases exists_slots hnodup hvalue rfl with ⟨slot, hslots, hshown⟩
  simp only [List.forall_mem_cons] at hshown
  rcases hshown with ⟨htimeout, hpenalties, hasciiOnly, htimeCost, hpolicy, htimeoutPolicy, -⟩
  simp only [ofJson?, withDefaults, hslots, Option.bind_eq_bind, Option.bind_some, Option.pure_def,
    htimeout.default_eq (reads_uint64 _ _), hpenalties.default_eq (PenaltyTable.reads _ _),
    hasciiOnly.default_eq (reads_bool _ _), htimeCost.default_eq (reads_bool _ _),
    hpolicy.default_eq (CostPolicy.reads _ _), htimeoutPolicy.default_eq (TimeoutPolicy.reads _ _)]

/-- Settings of the loop with defaults for some of their fields. -/
def EvolveOptions.withDefaults (omitted : FieldSet) (o : EvolveOptions) : EvolveOptions :=
  let standard : EvolveOptions := {}
  { cullRatio := omitted.choose "cull_ratio" standard.cullRatio o.cullRatio
    populationSize := omitted.choose "population_size" standard.populationSize o.populationSize
    initialProgramSize :=
      omitted.choose "initial_program_size" standard.initialProgramSize o.initialProgramSize
    timeoutMs := omitted.choose "program_timeout_ms" standard.timeoutMs o.timeoutMs
    generationLimit :=
      omitted.choose "generation_limit" standard.generationLimit o.generationLimit
    stagnationGenerations := omitted.choose "stagnation_generations"
      standard.stagnationGenerations o.stagnationGenerations
    verbose := omitted.choose "verbose" standard.verbose o.verbose }

/-- The settings of the loop hold a double, which has to be read back, and a generation limit that
may be absent. -/
theorem EvolveOptions.reads {o : EvolveOptions} (hratio : o.cullRatio.ReadsBack)
    (omitted : FieldSet) :
    Reads EvolveOptions.ofJson? (o.toJson.delete omitted) (o.withDefaults omitted) := by
  intro value hvalue
  have hnodup : fieldNames.Nodup := by decide
  rcases exists_slots hnodup hvalue rfl with ⟨slot, hslots, hshown⟩
  simp only [List.forall_mem_cons] at hshown
  rcases hshown with ⟨hcullRatio, hpopulation, hinitial, htimeout, hlimit, hstagnation, hverbose, -⟩
  simp only [ofJson?, withDefaults, hslots, Option.bind_eq_bind, Option.bind_some, Option.pure_def,
    hcullRatio.default_eq (hratio.reads _), hpopulation.default_eq (reads_uint64 _ _),
    hinitial.default_eq (reads_uint64 _ _), htimeout.default_eq (reads_uint64 _ _),
    hlimit.default_eq (reads_nullable_uint64 _ _), hstagnation.default_eq (reads_uint64 _ _),
    hverbose.default_eq (reads_bool _ _)]

/-- Mutation settings with defaults for some of their fields. -/
def MutateOptions.withDefaults (omitted : FieldSet) (o : MutateOptions) : MutateOptions :=
  let standard : MutateOptions := {}
  { inPlace := omitted.choose "likelihood_of_inplace" standard.inPlace o.inPlace
    addition := omitted.choose "likelihood_of_addition" standard.addition o.addition
    deletion := omitted.choose "likelihood_of_deletion" standard.deletion o.deletion
    none := omitted.choose "likelihood_of_none" standard.none o.none
    loopProbability :=
      omitted.choose "loop_probability" standard.loopProbability o.loopProbability }

/-- The settings of mutation hold the other double. -/
theorem MutateOptions.reads {o : MutateOptions} (hprobability : o.loopProbability.ReadsBack)
    (omitted : FieldSet) :
    Reads MutateOptions.ofJson? (o.toJson.delete omitted) (o.withDefaults omitted) := by
  intro value hvalue
  have hnodup : fieldNames.Nodup := by decide
  rcases exists_slots hnodup hvalue rfl with ⟨slot, hslots, hshown⟩
  simp only [List.forall_mem_cons] at hshown
  rcases hshown with ⟨hinPlace, haddition, hdeletion, hnone, hloop, -⟩
  simp only [ofJson?, withDefaults, hslots, Option.bind_eq_bind, Option.bind_some, Option.pure_def,
    hinPlace.default_eq (reads_uint32 _ _), haddition.default_eq (reads_uint32 _ _),
    hdeletion.default_eq (reads_uint32 _ _), hnone.default_eq (reads_uint32 _ _),
    hloop.default_eq (hprobability.reads _)]

/-! ## Configurations -/

namespace RunConfig

/-- A configuration with defaults for some of its fields, at any depth. -/
def withDefaults (omitted : FieldSet) (c : RunConfig) : RunConfig :=
  let standard : RunConfig := {}
  { cost := omitted.choose "cost" standard.cost (c.cost.withDefaults (omitted.below "cost"))
    evolve :=
      omitted.choose "evolve" standard.evolve (c.evolve.withDefaults (omitted.below "evolve"))
    mutation :=
      omitted.choose "mutate" standard.mutation (c.mutation.withDefaults (omitted.below "mutate"))
    randomSeed := omitted.choose "random_seed" standard.randomSeed c.randomSeed }

/-- A whole configuration is read from its edits, by its groups. Nothing is said of validity, which
is checked on what has been read. -/
theorem reads {c : RunConfig} (hratio : c.evolve.cullRatio.ReadsBack)
    (hprobability : c.mutation.loopProbability.ReadsBack) (omitted : FieldSet) :
    Reads RunConfig.ofJson? (c.toJson.delete omitted) (c.withDefaults omitted) := by
  intro value hvalue
  have hnodup : fieldNames.Nodup := by decide
  rcases exists_slots hnodup hvalue rfl with ⟨slot, hslots, hshown⟩
  simp only [List.forall_mem_cons] at hshown
  rcases hshown with ⟨hcost, hevolve, hmutation, hseed, -⟩
  simp only [ofJson?, withDefaults, hslots, Option.bind_eq_bind, Option.bind_some, Option.pure_def,
    hcost.default_eq (CostOptions.reads _ _), hevolve.default_eq (EvolveOptions.reads hratio _),
    hmutation.default_eq (MutateOptions.reads hprobability _),
    hseed.default_eq (reads_nullable_uint64 _ _)]

/-- Where nothing is left out, no default is taken. -/
theorem withDefaults_of_forall {omitted : FieldSet} (h : ∀ path, omitted path = false)
    (c : RunConfig) : c.withDefaults omitted = c := by
  obtain rfl : omitted = fun _ => false := funext h
  rfl

/-- A configuration, if it can be used. -/
def checked (c : RunConfig) : Except ReadError RunConfig :=
  match c.validate with
  | .error fault => .error (.invalid fault)
  | .ok () => .ok c

/-- Checking a configuration lets it through as it is or not at all. -/
theorem checked_eq_ok_iff {c config : RunConfig} :
    c.checked = .ok config ↔ c.validate = .ok () ∧ config = c := by
  unfold checked
  cases hvalid : c.validate with
  | error fault =>
    constructor
    · intro h
      cases h
    · rintro ⟨h, -⟩
      cases h
  | ok _ =>
    constructor
    · intro h
      exact ⟨rfl, (Except.ok.inj h).symm⟩
    · rintro ⟨-, rfl⟩
      rfl

/-- A generation limit that is left out, or that belongs to what is left out, is the usual one. Any
other one stays, and so does one that is absent. -/
theorem generationLimit_withDefaults (omitted : FieldSet) (c : RunConfig) :
    (c.withDefaults omitted).evolve.generationLimit =
      if omitted ["evolve"] || omitted ["evolve", "generation_limit"] then some 10000
      else c.evolve.generationLimit := by
  unfold withDefaults EvolveOptions.withDefaults FieldSet.choose FieldSet.below
  cases homitted : omitted ["evolve"] with
  | true => rfl
  | false =>
    cases hlimit : omitted ["evolve", "generation_limit"] with
    | true => rfl
    | false => rfl

end RunConfig

/-- What is read of a text that an edited configuration is written in. From a configuration whose
doubles are read back from their literals, any fields may have been left out, with all that is below
them, and the keys of each object may stand in any order: the text yields the configuration with
defaults for the fields that have been left out, or what is wrong with that configuration. So if
nothing has been left out, a configuration that can be used is read back as it was. A generation
limit that is left out is 10000, but one that was absent is written as such and stays absent. -/
theorem read_edited {c : RunConfig} (hratio : c.evolve.cullRatio.ReadsBack)
    (hprobability : c.mutation.loopProbability.ReadsBack) {omitted : FieldSet} {value : Json}
    (hedited : Reorders (c.toJson.delete omitted) value) {text : String}
    (htext : parse? text = some value) :
    RunConfig.read text = (c.withDefaults omitted).checked ∧
      ((∀ path, omitted path = false) → c.validate = .ok () → RunConfig.read text = .ok c) ∧
      (∀ config, RunConfig.read text = .ok config → config.evolve.generationLimit =
        if omitted ["evolve"] || omitted ["evolve", "generation_limit"] then some 10000
        else c.evolve.generationLimit) := by
  have hread : RunConfig.read text = (c.withDefaults omitted).checked := by
    -- The text counts by its value only, so the edits of the value are all that there is to follow.
    rw [RunConfig.read, htext]
    show RunConfig.readJson value = _
    rw [RunConfig.readJson, RunConfig.reads hratio hprobability omitted value hedited]
    rfl
  refine ⟨hread, ?_, ?_⟩
  · intro hall hvalid
    rw [hread, RunConfig.withDefaults_of_forall hall]
    exact RunConfig.checked_eq_ok_iff.mpr ⟨hvalid, rfl⟩
  · intro config hconfig
    rw [hread] at hconfig
    rw [(RunConfig.checked_eq_ok_iff.mp hconfig).2]
    exact RunConfig.generationLimit_withDefaults omitted c

/-- A configuration for small populations and any number of generations. -/
def RunConfig.endless : RunConfig where
  cost := { timeoutMs := 7 }
  evolve := { populationSize := 50, generationLimit := none }
  randomSeed := some 3

/-- All fields but the size of populations and the generation limit. -/
def FieldSet.sparse : FieldSet :=
  fun path => ¬ path ∈
    [["evolve"], ["evolve", "population_size"], ["evolve", "generation_limit"]]

/-- The two fields, the other way round. -/
def Json.sparse : Json :=
  object [(some "evolve",
    object [(some "generation_limit", null), (some "population_size", nat 50)])]

/-- Two fields are left, and they stand the other way round: first the values are edited, then the
entries are swapped. -/
theorem reorders_sparse : Reorders (RunConfig.endless.toJson.delete .sparse) Json.sparse := by
  have hdeleted : RunConfig.endless.toJson.delete .sparse = object [(some "evolve",
      object [(some "population_size", nat 50), (some "generation_limit", null)])] := rfl
  rw [hdeleted]
  have hfields : Reorders
      (object [(some "population_size", nat 50), (some "generation_limit", null)])
      (object [(some "generation_limit", null), (some "population_size", nat 50)]) :=
    .object (.refl _) (.swap _ _ _)
  exact .object (.cons hfields .nil) (.refl _)

/-- The two fields are read in the other order, and with defaults for all others. -/
theorem read_edited_sparse :
    RunConfig.endless.evolve.cullRatio.ReadsBack ∧
      RunConfig.endless.mutation.loopProbability.ReadsBack ∧
      Reorders (RunConfig.endless.toJson.delete .sparse) Json.sparse ∧
      parse? "\x7b\"evolve\":\x7b\"generation_limit\":null,\"population_size\":50\x7d\x7d" =
        some Json.sparse ∧
      RunConfig.read
          "\x7b\"evolve\":\x7b\"generation_limit\":null,\"population_size\":50\x7d\x7d" =
        .ok { evolve := { populationSize := 50, generationLimit := none } } := by
  have hratio : RunConfig.endless.evolve.cullRatio.ReadsBack := by
    unfold Binary64.ReadsBack
    decide +kernel
  have hprobability : RunConfig.endless.mutation.loopProbability.ReadsBack := by
    unfold Binary64.ReadsBack
    decide +kernel
  have htext : parse?
      "\x7b\"evolve\":\x7b\"generation_limit\":null,\"population_size\":50\x7d\x7d" =
        some Json.sparse := rfl
  refine ⟨hratio, hprobability, reorders_sparse, htext, ?_⟩
  rw [(read_edited hratio hprobability reorders_sparse htext).1]
  apply RunConfig.checked_eq_ok_iff.mpr
  constructor
  · decide +kernel
  · decide +kernel

end TapeBreeder
