import PhasedBuild.Build.Event
import PhasedBuild.Build.Schedule
import PhasedBuild.Build.Summary
import PhasedBuild.Datum.Reading

/-!
# Events and results as data

* `Event.ofDatum?` and `BuildSummary.ofDatum?` read what their `toDatum` writes.
-/

namespace PhasedBuild

namespace Event

/-- An event as data, its fields being given. -/
def datum (e : Event) (fields : List (String × Datum)) : Datum :=
  .table (("type", .text e.kind) :: fields)

/-- The fields of a change of a unit. -/
def unitFields : UnitChange → List (String × Datum)
  | .started => []
  | .succeeded => []
  | .failed error => [("error", .text error)]
  | .skipped reason => [("reason", .text reason)]

/-- The fields of a change of a step. -/
def stepFields : StepChange → List (String × Datum)
  | .started phase => (phase.map fun phase => ("phase", .text phase)).toList
  | .succeeded => []
  | .failed error => [("error", .text error)]
  | .skipped reason => [("reason", .text reason)]

/-- The fields of a change of forked work. -/
def forkFields : ForkChange → List (String × Datum)
  | .started => []
  | .succeeded => []
  | .failed error => [("error", .text error)]

/-- An event as data. -/
def toDatum (e : Event) : Datum :=
  match e with
  | .sessionStarted units segments => e.datum [("units", .nat units), ("segments", .nat segments)]
  | .sessionEnded success => e.datum [("success", .bool success)]
  | .ofUnit unit segment change =>
    e.datum ([("unit", .text unit), ("segment", .nat segment)] ++ unitFields change)
  | .ofStep unit step change =>
    e.datum ([("unit", .text unit), ("step", .text step)] ++ stepFields change)
  | .ofFork unit step change =>
    e.datum ([("unit", .text unit), ("step", .text step)] ++ forkFields change)
  | .ofForkedUnit unit step forked change =>
    e.datum ([("unit", .text unit), ("step", .text step), ("forked_unit", .text forked)] ++
      forkFields change)

/-- The names of the fields of events of a kind, in their order. -/
def fieldNames (kind : String) : List String :=
  match kind with
  | "session_started" => ["units", "segments"]
  | "session_ended" => ["success"]
  | "unit_failed" => ["unit", "segment", "error"]
  | "unit_skipped" => ["unit", "segment", "reason"]
  | "step_started" => ["unit", "step", "phase"]
  | "step_failed" => ["unit", "step", "error"]
  | "step_skipped" => ["unit", "step", "reason"]
  | "fork_failed" => ["unit", "step", "error"]
  | "forked_unit_failed" => ["unit", "step", "forked_unit", "error"]
  | _ =>
    if kind.startsWith "forked_unit" then ["unit", "step", "forked_unit"]
    else if kind.startsWith "unit" then ["unit", "segment"]
    else ["unit", "step"]

/-- Reads an event of a kind. -/
def ofFields? (kind : String) (fields : Fields) : Option Event := do
  let text (name : String) : Option String := fields.required name Datum.text?
  let count (name : String) : Option Nat := fields.required name Datum.count?
  let aboutUnit (change : Option UnitChange) : Option Event := do
    return .ofUnit (← text "unit") (← count "segment") (← change)
  let aboutStep (change : Option StepChange) : Option Event := do
    return .ofStep (← text "unit") (← text "step") (← change)
  let aboutFork (change : Option ForkChange) : Option Event := do
    return .ofFork (← text "unit") (← text "step") (← change)
  let aboutForkedUnit (change : Option ForkChange) : Option Event := do
    return .ofForkedUnit (← text "unit") (← text "step") (← text "forked_unit") (← change)
  match kind with
  | "session_started" => return .sessionStarted (← count "units") (← count "segments")
  | "session_ended" => return .sessionEnded (← fields.required "success" Datum.bool?)
  | "unit_started" => aboutUnit (some .started)
  | "unit_succeeded" => aboutUnit (some .succeeded)
  | "unit_failed" => aboutUnit ((text "error").map .failed)
  | "unit_skipped" => aboutUnit ((text "reason").map .skipped)
  | "step_started" => aboutStep ((fields.optional "phase" Datum.text?).map .started)
  | "step_succeeded" => aboutStep (some .succeeded)
  | "step_failed" => aboutStep ((text "error").map .failed)
  | "step_skipped" => aboutStep ((text "reason").map .skipped)
  | "fork_started" => aboutFork (some .started)
  | "fork_succeeded" => aboutFork (some .succeeded)
  | "fork_failed" => aboutFork ((text "error").map .failed)
  | "forked_unit_started" => aboutForkedUnit (some .started)
  | "forked_unit_succeeded" => aboutForkedUnit (some .succeeded)
  | "forked_unit_failed" => aboutForkedUnit ((text "error").map .failed)
  | _ => none

/-- Reads an event. Its kind is the field `type` of a table, or the first item of a list whose other
items are the fields in their order. -/
def ofDatum? (d : Datum) : Option Event := do
  let (kind, rest) ← match d with
    | .list (first :: rest) => first.text?.map (·, Datum.list rest)
    | d => ((d.get? "type").bind Datum.text?).map (·, d)
  ofFields? kind (← Fields.of? .json (fieldNames kind) rest)

end Event

/-- A log record as data; all its fields stand beside the level and the message. -/
def LogRecord.toDatum (r : LogRecord) : Datum :=
  .table ([("level", .text r.level.name), ("message", .text r.message)] ++
    r.fields.map fun (name, value) => (name, .text value))

/-- The status of a unit as data. -/
def UnitStatus.toDatum : UnitStatus → Datum
  | .pending => .text "pending"
  | .running => .text "running"
  | .succeeded => .text "succeeded"
  | .failed error => .table [("failed", .table [("error", .text error)])]
  | .skipped reason => .table [("skipped", .table [("reason", .text reason)])]

/-- A schedule as data. -/
def Schedule.toDatum (s : Schedule) : Datum :=
  .table [
    ("statuses", .list (s.units.map fun unit => .list [.text unit.id, unit.status.toDatum])),
    ("ready", .texts s.ready),
    ("waves", .list (s.waves.map .texts)),
    ("running", .nat s.runningCount),
    ("complete", .bool s.isComplete),
    ("len", .nat s.size),
    ("empty", .bool (s.size == 0))]

namespace UnitResult

/-- The fields of a result in their order. -/
def fieldNames : List String :=
  ["unit", "segment", "outcome", "error", "error_kind", "last_phase", "steps", "duration"]

/-- Reads a result. -/
def ofDatum? (d : Datum) : Option UnitResult := do
  let fields ← Fields.of? .json fieldNames d
  let unit ← fields.required "unit" Datum.text?
  let segment ← fields.required "segment" Datum.count?
  let outcome ← fields.required "outcome" (Datum.word? .json UnitOutcome.ofName?)
  let error ← fields.optional "error" Datum.text?
  let errorKind ← fields.optional "error_kind" (Datum.word? .json ErrorKind.ofName?)
  let lastPhase ← fields.optional "last_phase" Datum.text?
  let steps ← fields.required "steps" Datum.count?
  let milliseconds ← fields.required "duration" Datum.count?
  return { unit, segment, outcome, error, errorKind, lastPhase, steps, milliseconds }

/-- A result as data, with its duration if that is known. -/
def toDatum (r : UnitResult) (milliseconds : Option Nat) : Datum :=
  .record [
    ("unit", some (.text r.unit)),
    ("segment", some (.nat r.segment)),
    ("outcome", some (.text r.outcome.name)),
    ("error", r.error.map .text),
    ("error_kind", r.errorKind.map fun kind => .text kind.name),
    ("last_phase", r.lastPhase.map .text),
    ("steps", some (.nat r.steps)),
    ("duration", milliseconds.map .nat)]

end UnitResult

namespace BuildSummary

/-- The fields of a summary in their order. -/
def fieldNames : List String :=
  ["total", "succeeded", "failed", "skipped", "duration", "results", "failure_policy"]

/-- Reads a summary. -/
def ofDatum? (d : Datum) : Option BuildSummary := do
  let fields ← Fields.of? .json fieldNames d
  let total ← fields.required "total" Datum.count?
  let succeeded ← fields.required "succeeded" Datum.count?
  let failed ← fields.required "failed" Datum.count?
  let skipped ← fields.required "skipped" Datum.count?
  let milliseconds ← fields.required "duration" Datum.count?
  let results ← fields.withDefault "results" [] (Datum.list? UnitResult.ofDatum?)
  let policy ← fields.required "failure_policy" (Datum.word? .json FailurePolicy.ofName?)
  return { total, succeeded, failed, skipped, milliseconds, results, policy }

/-- A summary as data; the durations are left out if `timed` is not set. -/
def toDatum (s : BuildSummary) (timed : Bool) : Datum :=
  let duration (milliseconds : Nat) : Option Nat := if timed then some milliseconds else none
  .record [
    ("total", some (.nat s.total)),
    ("succeeded", some (.nat s.succeeded)),
    ("failed", some (.nat s.failed)),
    ("skipped", some (.nat s.skipped)),
    ("duration", (duration s.milliseconds).map .nat),
    ("results", some (.list (s.results.map fun r => r.toDatum (duration r.milliseconds)))),
    ("failure_policy", some (.text s.policy.name))]

end BuildSummary

end PhasedBuild
