import TapeBreeder.Config
import TapeBreeder.Json.Parser
import TapeBreeder.Json.Printer
import TapeBreeder.Json.Record

/-!
# Configurations as JSON records

Each group of settings is written as a record with its fields in a fixed order, and read from a
record in which every field may be missing. What is missing has its default; a generation limit
that is `null`, however, means that there is none.

* `RunConfig.toJson`, `RunConfig.ofJson?` — the two directions.
* `RunConfig.read` — a configuration from a text, checked.
-/

namespace TapeBreeder

open Json

/-! ## Scalars -/

namespace Charge

/-- A charge as a JSON value. -/
def toJson (c : Charge) : Json :=
  .nat c.amount

/-- The charge that a JSON value is; an amount above the limit is none. -/
def ofJson? (value : Json) : Option Charge :=
  (value.natBelow? (limit + 1)).map ofNat

end Charge

/-- A 64-bit natural number as a JSON value. -/
def uint64ToJson (n : UInt64) : Json :=
  .nat n.toNat

/-- A 32-bit natural number as a JSON value. -/
def uint32ToJson (n : UInt32) : Json :=
  .nat n.toNat

namespace CostPolicy

/-- The name of a policy. -/
def name : CostPolicy → String
  | characterDistance => "CharacterDistance"
  | bucketed => "Bucketed"

/-- The policy that a JSON value names. -/
def ofJson? (value : Json) : Option CostPolicy :=
  value.variant?.bind fun name =>
    [characterDistance, bucketed].find? fun policy => policy.name == name

end CostPolicy

namespace TimeoutPolicy

/-- The name of a policy. -/
def name : TimeoutPolicy → String
  | penalize => "Penalize"
  | disqualify => "Disqualify"

/-- The policy that a JSON value names. -/
def ofJson? (value : Json) : Option TimeoutPolicy :=
  value.variant?.bind fun name =>
    [penalize, disqualify].find? fun policy => policy.name == name

end TimeoutPolicy

/-! ## Records -/

namespace PenaltyTable

/-- The fields of a penalty table, in order. -/
def fieldNames : List String :=
  ["timeout", "no_output", "non_ascii", "too_short", "too_long", "wrong_char", "extra_char",
    "missing_char", "non_intersection", "not_equal"]

/-- A penalty table as a JSON value. -/
def toJson (t : PenaltyTable) : Json :=
  .record [
    ("timeout", t.timeout.toJson),
    ("no_output", t.noOutput.toJson),
    ("non_ascii", t.nonAscii.toJson),
    ("too_short", t.tooShort.toJson),
    ("too_long", t.tooLong.toJson),
    ("wrong_char", t.wrongChar.toJson),
    ("extra_char", t.extraChar.toJson),
    ("missing_char", t.missingChar.toJson),
    ("non_intersection", t.nonIntersection.toJson),
    ("not_equal", t.notEqual.toJson)]

/-- The penalty table that a JSON value is. -/
def ofJson? (value : Json) : Option PenaltyTable := do
  let slot ← value.slots? fieldNames
  let standard : PenaltyTable := {}
  return {
    timeout := ← (slot "timeout").default standard.timeout Charge.ofJson?
    noOutput := ← (slot "no_output").default standard.noOutput Charge.ofJson?
    nonAscii := ← (slot "non_ascii").default standard.nonAscii Charge.ofJson?
    tooShort := ← (slot "too_short").default standard.tooShort Charge.ofJson?
    tooLong := ← (slot "too_long").default standard.tooLong Charge.ofJson?
    wrongChar := ← (slot "wrong_char").default standard.wrongChar Charge.ofJson?
    extraChar := ← (slot "extra_char").default standard.extraChar Charge.ofJson?
    missingChar := ← (slot "missing_char").default standard.missingChar Charge.ofJson?
    nonIntersection :=
      ← (slot "non_intersection").default standard.nonIntersection Charge.ofJson?
    notEqual := ← (slot "not_equal").default standard.notEqual Charge.ofJson? }

end PenaltyTable

namespace CostOptions

/-- The fields of the scoring settings, in order. -/
def fieldNames : List String :=
  ["program_timeout_ms", "penalties", "ascii_only", "time_cost", "policy", "timeout_policy"]

/-- Scoring settings as a JSON value. -/
def toJson (o : CostOptions) : Json :=
  .record [
    ("program_timeout_ms", uint64ToJson o.timeoutMs),
    ("penalties", o.penalties.toJson),
    ("ascii_only", .bool o.asciiOnly),
    ("time_cost", .bool o.timeCost),
    ("policy", .str o.policy.name),
    ("timeout_policy", .str o.timeoutPolicy.name)]

/-- The scoring settings that a JSON value is. -/
def ofJson? (value : Json) : Option CostOptions := do
  let slot ← value.slots? fieldNames
  let standard : CostOptions := {}
  return {
    timeoutMs := ← (slot "program_timeout_ms").default standard.timeoutMs Json.uint64?
    penalties := ← (slot "penalties").default standard.penalties PenaltyTable.ofJson?
    asciiOnly := ← (slot "ascii_only").default standard.asciiOnly Json.bool?
    timeCost := ← (slot "time_cost").default standard.timeCost Json.bool?
    policy := ← (slot "policy").default standard.policy CostPolicy.ofJson?
    timeoutPolicy :=
      ← (slot "timeout_policy").default standard.timeoutPolicy TimeoutPolicy.ofJson? }

end CostOptions

namespace EvolveOptions

/-- The fields of the settings of the loop, in order. -/
def fieldNames : List String :=
  ["cull_ratio", "population_size", "initial_program_size", "program_timeout_ms",
    "generation_limit", "stagnation_generations", "verbose"]

/-- The settings of the loop as a JSON value. -/
def toJson (o : EvolveOptions) : Json :=
  .record [
    ("cull_ratio", o.cullRatio.literal),
    ("population_size", uint64ToJson o.populationSize),
    ("initial_program_size", uint64ToJson o.initialProgramSize),
    ("program_timeout_ms", uint64ToJson o.timeoutMs),
    ("generation_limit", .option uint64ToJson o.generationLimit),
    ("stagnation_generations", uint64ToJson o.stagnationGenerations),
    ("verbose", .bool o.verbose)]

/-- The settings of the loop that a JSON value is. -/
def ofJson? (value : Json) : Option EvolveOptions := do
  let slot ← value.slots? fieldNames
  let standard : EvolveOptions := {}
  return {
    cullRatio := ← (slot "cull_ratio").default standard.cullRatio Binary64.ofJson?
    populationSize :=
      ← (slot "population_size").default standard.populationSize Json.uint64?
    initialProgramSize :=
      ← (slot "initial_program_size").default standard.initialProgramSize Json.uint64?
    timeoutMs := ← (slot "program_timeout_ms").default standard.timeoutMs Json.uint64?
    generationLimit :=
      ← (slot "generation_limit").default standard.generationLimit (Json.nullable Json.uint64?)
    stagnationGenerations :=
      ← (slot "stagnation_generations").default standard.stagnationGenerations Json.uint64?
    verbose := ← (slot "verbose").default standard.verbose Json.bool? }

end EvolveOptions

namespace MutateOptions

/-- The fields of the mutation settings, in order. -/
def fieldNames : List String :=
  ["likelihood_of_inplace", "likelihood_of_addition", "likelihood_of_deletion",
    "likelihood_of_none", "loop_probability"]

/-- Mutation settings as a JSON value. -/
def toJson (o : MutateOptions) : Json :=
  .record [
    ("likelihood_of_inplace", uint32ToJson o.inPlace),
    ("likelihood_of_addition", uint32ToJson o.addition),
    ("likelihood_of_deletion", uint32ToJson o.deletion),
    ("likelihood_of_none", uint32ToJson o.none),
    ("loop_probability", o.loopProbability.literal)]

/-- The mutation settings that a JSON value is. -/
def ofJson? (value : Json) : Option MutateOptions := do
  let slot ← value.slots? fieldNames
  let standard : MutateOptions := {}
  return {
    inPlace := ← (slot "likelihood_of_inplace").default standard.inPlace Json.uint32?
    addition := ← (slot "likelihood_of_addition").default standard.addition Json.uint32?
    deletion := ← (slot "likelihood_of_deletion").default standard.deletion Json.uint32?
    none := ← (slot "likelihood_of_none").default standard.none Json.uint32?
    loopProbability :=
      ← (slot "loop_probability").default standard.loopProbability Binary64.ofJson? }

end MutateOptions

namespace RunConfig

/-- The fields of a configuration, in order. -/
def fieldNames : List String :=
  ["cost", "evolve", "mutate", "random_seed"]

/-- A configuration as a JSON value. -/
def toJson (c : RunConfig) : Json :=
  .record [
    ("cost", c.cost.toJson),
    ("evolve", c.evolve.toJson),
    ("mutate", c.mutation.toJson),
    ("random_seed", .option uint64ToJson c.randomSeed)]

/-- The configuration that a JSON value is. -/
def ofJson? (value : Json) : Option RunConfig := do
  let slot ← value.slots? fieldNames
  let standard : RunConfig := {}
  return {
    cost := ← (slot "cost").default standard.cost CostOptions.ofJson?
    evolve := ← (slot "evolve").default standard.evolve EvolveOptions.ofJson?
    mutation := ← (slot "mutate").default standard.mutation MutateOptions.ofJson?
    randomSeed :=
      ← (slot "random_seed").default standard.randomSeed (Json.nullable Json.uint64?) }

/-- Why a text yields no configuration. -/
inductive ReadError where
  /-- It does not write one. -/
  | malformed
  /-- It writes one that cannot be used. -/
  | invalid (fault : ConfigError)
deriving DecidableEq, Repr

/-- Check the configuration that a JSON value is. -/
def readJson (value : Json) : Except ReadError RunConfig :=
  match ofJson? value with
  | none => .error .malformed
  | some config =>
    match config.validate with
    | .error fault => .error (.invalid fault)
    | .ok () => .ok config

/-- The configuration that a text writes, checked. -/
def read (text : String) : Except ReadError RunConfig :=
  match Json.parse? text with
  | none => .error .malformed
  | some value => readJson value

end RunConfig

end TapeBreeder
