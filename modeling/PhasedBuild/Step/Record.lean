import PhasedBuild.Datum.Reading
import PhasedBuild.Step.Binding

/-!
# Steps and plugins as data

* `PluginDescriptor.ofDatum?` and `StepDescriptor.ofDatum?` read what their `toDatum` writes. The
  coordinate of a plugin is not repeated at its goals.
-/

namespace PhasedBuild

/-- Reads a coordinate. -/
def Coordinate.ofDatum? (d : Datum) : Option Coordinate :=
  d.text?.bind Coordinate.parse?

/-- A coordinate as data. -/
def Coordinate.toDatum (c : Coordinate) : Datum :=
  .text c.display

/-- The identity of a step as data. -/
def StepKey.toDatum (k : StepKey) : Datum :=
  .table [("plugin", .text k.plugin), ("goal", .text k.goal)]

namespace Parameter

/-- Reads a parameter. -/
def ofDatum? (format : DataFormat) (d : Datum) : Option Parameter := do
  let fields ← Fields.of? format
    ["name", "alias", "expression", "default_value", "implementation"] d
  let name ← fields.required "name" Datum.text?
  let otherName ← fields.optional "alias" Datum.text?
  let expression ← fields.optional "expression" Datum.text?
  let defaultValue ← fields.optional "default_value" Datum.text?
  let implementation ← fields.optional "implementation" Datum.text?
  return { name, otherName, expression, defaultValue, implementation }

/-- A parameter as data. -/
def toDatum (p : Parameter) : Datum :=
  .record [
    ("name", some (.text p.name)),
    ("alias", p.otherName.map .text),
    ("expression", p.expression.map .text),
    ("default_value", p.defaultValue.map .text),
    ("implementation", p.implementation.map .text)]

end Parameter

namespace ForkSpec

/-- Reads what a step forks: a phase if one is named, else a goal. -/
def ofFields? (fields : Fields) : Option ForkSpec :=
  let toPhase : Option ForkSpec := do
    let name ← fields.required "phase" Datum.text?
    let overlay ← fields.optional "lifecycle" Datum.text?
    return .phase name overlay
  toPhase.or ((fields.required "goal" Datum.text?).map .goal)

/-- Reads what a step forks. Which alternative is meant shows only when all fields have been taken
in, so none of them may be too great to be kept until then. -/
def ofDatum? : Datum → Option ForkSpec
  | .table fields =>
    if Datum.fieldsStorable fields then
      ofFields? ⟨fun name => (Datum.table fields).get? name⟩
    else none
  | _ => none

/-- What a step forks as data. -/
def toDatum : ForkSpec → Datum
  | .phase name overlay =>
    .record [("phase", some (.text name)), ("lifecycle", overlay.map .text)]
  | .goal name => .table [("goal", .text name)]

end ForkSpec

namespace OverlayExecution

/-- Reads the goals that an overlay adds. -/
def ofDatum? (format : DataFormat) (d : Datum) : Option OverlayExecution := do
  let fields ← Fields.of? format ["goals", "configuration"] d
  let goals ← fields.withDefault "goals" [] (Datum.list? Datum.text?)
  let configuration ← fields.optional "configuration" (ConfigNode.ofTable? format)
  return { goals, configuration }

/-- The goals that an overlay adds as data. -/
def toDatum (e : OverlayExecution) : Datum :=
  .record [
    ("goals", some (.texts e.goals)),
    ("configuration", e.configuration.map ConfigNode.toDatum)]

end OverlayExecution

namespace OverlayPhase

/-- Reads what an overlay adds to a phase. -/
def ofDatum? (format : DataFormat) (d : Datum) : Option OverlayPhase := do
  let fields ← Fields.of? format ["id", "executions", "configuration"] d
  let id ← fields.required "id" Datum.text?
  let executions ← fields.withDefault "executions" []
    (Datum.list? (OverlayExecution.ofDatum? format))
  let configuration ← fields.optional "configuration" (ConfigNode.ofTable? format)
  return { id, executions, configuration }

/-- What an overlay adds to a phase as data. -/
def toDatum (p : OverlayPhase) : Datum :=
  .record [
    ("id", some (.text p.id)),
    ("executions", some (.list (p.executions.map OverlayExecution.toDatum))),
    ("configuration", p.configuration.map ConfigNode.toDatum)]

end OverlayPhase

namespace Overlay

/-- Reads an overlay. -/
def ofDatum? (format : DataFormat) (d : Datum) : Option Overlay := do
  let fields ← Fields.of? format ["id", "phases"] d
  let id ← fields.required "id" Datum.text?
  let phases ← fields.withDefault "phases" [] (Datum.list? (OverlayPhase.ofDatum? format))
  return { id, phases }

/-- An overlay as data. -/
def toDatum (o : Overlay) : Datum :=
  .table [("id", .text o.id), ("phases", .list (o.phases.map OverlayPhase.toDatum))]

end Overlay

namespace StepDescriptor

/-- The fields of a descriptor in their order. -/
def fieldNames : List String :=
  ["goal", "phase", "parameters", "fork", "aggregator", "online_required", "project_required",
    "requires_resolution", "requires_collection"]

/-- Reads the descriptor of a goal; its plugin is left open. -/
def ofDatum? (format : DataFormat) (d : Datum) : Option StepDescriptor := do
  let fields ← Fields.of? format fieldNames d
  let goal ← fields.required "goal" Datum.text?
  let phase ← fields.optional "phase" Datum.text?
  let parameters ← fields.withDefault "parameters" [] (Datum.list? (Parameter.ofDatum? format))
  let fork ← fields.optional "fork" ForkSpec.ofDatum?
  let aggregator ← fields.withDefault "aggregator" false Datum.bool?
  let onlineRequired ← fields.withDefault "online_required" false Datum.bool?
  let projectRequired ← fields.withDefault "project_required" true Datum.bool?
  let requiresResolution ←
    fields.optional "requires_resolution" (Datum.word? format ResolutionScope.ofName?)
  let requiresCollection ←
    fields.optional "requires_collection" (Datum.word? format ResolutionScope.ofName?)
  return {
    plugin := ⟨"", "", none⟩
    goal, phase, parameters, fork, aggregator, onlineRequired, projectRequired
    requiresResolution, requiresCollection }

/-- The descriptor of a goal as data. -/
def toDatum (d : StepDescriptor) : Datum :=
  .record [
    ("goal", some (.text d.goal)),
    ("phase", d.phase.map .text),
    ("parameters", some (.list (d.parameters.map Parameter.toDatum))),
    ("fork", d.fork.map ForkSpec.toDatum),
    ("aggregator", some (.bool d.aggregator)),
    ("online_required", some (.bool d.onlineRequired)),
    ("project_required", some (.bool d.projectRequired)),
    ("requires_resolution", d.requiresResolution.map fun scope => .text scope.name),
    ("requires_collection", d.requiresCollection.map fun scope => .text scope.name)]

end StepDescriptor

namespace PluginDescriptor

/-- Reads a plugin. -/
def ofDatum? (format : DataFormat) (d : Datum) : Option PluginDescriptor := do
  let fields ← Fields.of? format ["coordinate", "prefix", "goals", "lifecycles"] d
  let coordinate ← fields.required "coordinate" Coordinate.ofDatum?
  let shorthand ← fields.optional "prefix" Datum.text?
  let goals ← fields.withDefault "goals" [] (Datum.list? (StepDescriptor.ofDatum? format))
  let overlays ← fields.withDefault "lifecycles" [] (Datum.list? (Overlay.ofDatum? format))
  return { coordinate, shorthand, goals, overlays }

/-- A plugin as data. -/
def toDatum (p : PluginDescriptor) : Datum :=
  .record [
    ("coordinate", some p.coordinate.toDatum),
    ("prefix", p.shorthand.map .text),
    ("goals", some (.list (p.goals.map StepDescriptor.toDatum))),
    ("lifecycles", some (.list (p.overlays.map Overlay.toDatum)))]

end PluginDescriptor

/-- A binding as data. -/
def StepBinding.toDatum (b : StepBinding) : Datum :=
  .record [
    ("plugin", some b.plugin.toDatum),
    ("goal", some (.text b.goal)),
    ("phase", some (.orNull (b.phase.map .text))),
    ("priority", some (.int b.priority)),
    ("execution_id", some (.text b.executionId)),
    ("configuration", b.configuration.map ConfigNode.toDatum)]

end PhasedBuild
