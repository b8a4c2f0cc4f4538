import PhasedBuild.Plan.Mappings
import PhasedBuild.Step.Record
import PhasedBuild.Task

/-!
# Tasks, mappings and plans as data
-/

namespace PhasedBuild

/-- The name of a plugin as data. -/
def PluginRef.toDatum : PluginRef → Datum
  | .shorthand name => .table [("prefix", .text name)]
  | .coordinate c => .table [("coordinate", c.toDatum)]

/-- A goal that is asked for as data. -/
def GoalSpec.toDatum (g : GoalSpec) : Datum :=
  .table [
    ("plugin", g.plugin.toDatum),
    ("goal", .text g.goal),
    ("execution_id", .orNull (g.executionId.map .text))]

/-- A task as data. -/
def Task.toDatum : Task → Datum
  | .phase name => .table [("type", .text "phase"), ("value", .text name)]
  | .goal spec => .table [("type", .text "goal"), ("value", spec.toDatum)]

/-- A segment as data. -/
def Segment.toDatum (s : Segment) : Datum :=
  .table [("tasks", .list (s.tasks.map Task.toDatum)), ("aggregating", .bool s.aggregating)]

namespace Execution

/-- An execution with its forked work, which is data already. -/
def stepDatum (step : Step) (forks : List (String × Datum)) : Datum :=
  .record [
    ("step", some (.text step.descriptor.display)),
    ("execution_id", some (.text step.executionId)),
    ("lifecycle_phase", step.phase.map .text),
    ("source", some (.text step.source.name)),
    ("configuration", some step.configuration.toDatum),
    ("forks", some (.table forks))]

mutual

/-- An execution as data. -/
def toDatum : Execution → Datum
  | ⟨step, .pending⟩ => stepDatum step [("state", .text "pending")]
  | ⟨step, .notForking⟩ => stepDatum step [("state", .text "not_forking")]
  | ⟨step, .expanded units⟩ =>
    stepDatum step [("state", .text "expanded"), ("units", .list (unitsToData units))]

/-- The forked units of a step as data. -/
def unitsToData : List (Forked Execution) → List Datum
  | [] => []
  | ⟨unit, executions⟩ :: rest =>
    .table [("unit", .text unit), ("executions", .list (toData executions))] :: unitsToData rest

/-- Executions as data. -/
def toData : List Execution → List Datum
  | [] => []
  | execution :: rest => execution.toDatum :: toData rest

end

end Execution

/-- A plan as data. -/
def ExecutionPlan.toDatum (p : ExecutionPlan) : Datum :=
  .table [("unit", .text p.unit), ("executions", .list (Execution.toData p.executions))]

/-- The steps of a lifecycle as data: those at each point, and all of them with their final
configuration. -/
def Mappings.toDatum (m : Mappings) : Datum :=
  let steps := m.steps
  .table [
    ("lifecycle", .text m.lifecycle),
    ("len", .nat steps.length),
    ("empty", .bool steps.isEmpty),
    ("points", .list (m.entries.map fun (point, steps) => .list [
      .text point.display,
      .list (steps.map fun step => .list [
        .text step.descriptor.display, .text step.executionId,
        .orNull (step.declared.map ConfigNode.toDatum)])])),
    ("finalized", .list (steps.map fun step => Execution.toDatum { step := step.configure }))]

end PhasedBuild
