import TapeBreeder.Config.Record
import TapeBreeder.Search.Report

/-!
# Reports as JSON records

Reports and snapshots are written as records with their fields in a fixed order. When they are
read, every field must be there, except that what may be absent need not have a key. A program
is a string, and reading one drops its comments.
-/

namespace TapeBreeder

open Json

/-- A count as a JSON value: a natural number of 64 bits. -/
def count? (value : Json) : Option Nat :=
  value.natBelow? UInt64.size

/-- The values that the items of an array are. -/
def listOf? {α : Type} (read : Json → Option α) (value : Json) : Option (List α) :=
  value.items?.bind fun items => items.mapM read

namespace Program

/-- A program as a JSON value. -/
def toJson (p : Program) : Json :=
  .str p.render

/-- The program that a JSON value is. -/
def ofJson? (value : Json) : Option Program :=
  value.str?.map parse

end Program

namespace Sample

/-- The fields of a sample, in order. -/
def fieldNames : List String :=
  ["input", "output"]

/-- A sample as a JSON value. -/
def toJson (s : Sample) : Json :=
  .record [("input", .str s.input), ("output", .str s.output)]

/-- The sample that a JSON value is. -/
def ofJson? (value : Json) : Option Sample := do
  let slot ← value.slots? fieldNames
  return {
    input := ← (slot "input").required Json.str?
    output := ← (slot "output").required Json.str? }

end Sample

namespace Report

/-- The fields of a report, in order. -/
def fieldNames : List String :=
  ["program", "cost", "generation", "samples"]

/-- A report as a JSON value. -/
def toJson (r : Report) : Json :=
  .record [
    ("program", r.program.toJson),
    ("cost", r.cost.toJson),
    ("generation", .nat r.generation),
    ("samples", .array (r.samples.map Sample.toJson))]

/-- The report that a JSON value is. -/
def ofJson? (value : Json) : Option Report := do
  let slot ← value.slots? fieldNames
  return {
    program := ← (slot "program").required Program.ofJson?
    cost := ← (slot "cost").required Charge.ofJson?
    generation := ← (slot "generation").required count?
    samples := ← (slot "samples").required (listOf? Sample.ofJson?) }

end Report

namespace SupervisedReport

/-- The fields of the report of a supervised search, in order. -/
def fieldNames : List String :=
  ["attempts", "report"]

/-- The report of a supervised search as a JSON value. -/
def toJson (r : SupervisedReport) : Json :=
  .record [("attempts", .nat r.attempts), ("report", r.report.toJson)]

/-- The report of a supervised search that a JSON value is. -/
def ofJson? (value : Json) : Option SupervisedReport := do
  let slot ← value.slots? fieldNames
  return {
    attempts := ← (slot "attempts").required count?
    report := ← (slot "report").required Report.ofJson? }

end SupervisedReport

namespace Phase

/-- The name of a phase. -/
def name : Phase → String
  | initializing => "Initializing"
  | evaluating => "Evaluating"
  | complete => "Complete"
  | stopped => "Stopped"

/-- A phase as a JSON value. -/
def toJson (phase : Phase) : Json :=
  .str phase.name

/-- The phase that a JSON value names. -/
def ofJson? (value : Json) : Option Phase :=
  value.variant?.bind fun name =>
    [initializing, evaluating, complete, stopped].find? fun phase => phase.name == name

end Phase

namespace Progress

/-- The fields of a snapshot, in order. -/
def fieldNames : List String :=
  ["generation", "generation_limit", "population_size", "invalid_count", "best_cost",
    "best_program", "best_base_cost", "time_cost", "flat_generations", "stagnant", "phase"]

/-- A snapshot as a JSON value. -/
def toJson (p : Progress) : Json :=
  .record [
    ("generation", .nat p.generation),
    ("generation_limit", .option uint64ToJson p.generationLimit),
    ("population_size", .nat p.populationSize),
    ("invalid_count", .nat p.invalidCount),
    ("best_cost", .option Charge.toJson p.bestCost),
    ("best_program", .option Program.toJson p.bestProgram),
    ("best_base_cost", .option Charge.toJson p.bestBaseCost),
    ("time_cost", .bool p.timeCost),
    ("flat_generations", .nat p.flatGenerations),
    ("stagnant", .bool p.stagnant),
    ("phase", p.phase.toJson)]

/-- The snapshot that a JSON value is. -/
def ofJson? (value : Json) : Option Progress := do
  let slot ← value.slots? fieldNames
  return {
    generation := ← (slot "generation").required count?
    generationLimit := ← (slot "generation_limit").optional Json.uint64?
    populationSize := ← (slot "population_size").required count?
    invalidCount := ← (slot "invalid_count").required count?
    bestCost := ← (slot "best_cost").optional Charge.ofJson?
    bestProgram := ← (slot "best_program").optional Program.ofJson?
    bestBaseCost := ← (slot "best_base_cost").optional Charge.ofJson?
    timeCost := ← (slot "time_cost").required Json.bool?
    flatGenerations := ← (slot "flat_generations").required count?
    stagnant := ← (slot "stagnant").required Json.bool?
    phase := ← (slot "phase").required Phase.ofJson? }

end Progress

end TapeBreeder
