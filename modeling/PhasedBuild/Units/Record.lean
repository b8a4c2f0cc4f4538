import PhasedBuild.Step.Record
import PhasedBuild.Units

/-!
# Units as data

* `BuildUnit.ofDatum?` reads what `BuildUnit.toDatum` writes.
-/

namespace PhasedBuild

/-- Reads a dependency. -/
def UnitDependency.ofDatum? (format : DataFormat) (d : Datum) : Option UnitDependency := do
  let fields ← Fields.of? format ["unit", "scope"] d
  let unit ← fields.required "unit" Datum.text?
  let scope ← fields.optional "scope" (Datum.word? format Scope.ofName?)
  return { unit, scope }

/-- A dependency as data. -/
def UnitDependency.toDatum (d : UnitDependency) : Datum :=
  .record [("unit", some (.text d.unit)), ("scope", d.scope.map fun scope => .text scope.name)]

/-- Reads an execution. -/
def ExecutionDecl.ofDatum? (format : DataFormat) (d : Datum) : Option ExecutionDecl := do
  let fields ← Fields.of? format ["id", "phase", "goals", "priority", "configuration"] d
  let id ← fields.withDefault "id" "default" Datum.text?
  let phase ← fields.optional "phase" Datum.text?
  let goals ← fields.withDefault "goals" [] (Datum.list? Datum.text?)
  let priority ← fields.withDefault "priority" 0 Datum.int32?
  let configuration ← fields.optional "configuration" (ConfigNode.ofTable? format)
  return { id, phase, goals, priority, configuration }

/-- An execution as data. -/
def ExecutionDecl.toDatum (e : ExecutionDecl) : Datum :=
  .record [
    ("id", some (.text e.id)),
    ("phase", e.phase.map .text),
    ("goals", some (.texts e.goals)),
    ("priority", some (.int e.priority)),
    ("configuration", e.configuration.map ConfigNode.toDatum)]

/-- Reads the use of a plugin. -/
def PluginUse.ofDatum? (format : DataFormat) (d : Datum) : Option PluginUse := do
  let fields ← Fields.of? format ["coordinate", "configuration", "executions"] d
  let coordinate ← fields.required "coordinate" Coordinate.ofDatum?
  let configuration ← fields.optional "configuration" (ConfigNode.ofTable? format)
  let executions ← fields.withDefault "executions" [] (Datum.list? (ExecutionDecl.ofDatum? format))
  return { coordinate, configuration, executions }

/-- The use of a plugin as data. -/
def PluginUse.toDatum (u : PluginUse) : Datum :=
  .record [
    ("coordinate", some u.coordinate.toDatum),
    ("configuration", u.configuration.map ConfigNode.toDatum),
    ("executions", some (.list (u.executions.map ExecutionDecl.toDatum)))]

namespace BuildUnit

/-- Reads a unit. -/
def ofDatum? (format : DataFormat) (d : Datum) : Option BuildUnit := do
  let fields ← Fields.of? format
    ["id", "packaging", "dependencies", "modules", "plugins", "properties"] d
  let id ← fields.required "id" Datum.text?
  let packaging ← fields.withDefault "packaging" "jar" Datum.text?
  let dependencies ← fields.withDefault "dependencies" []
    (Datum.list? (UnitDependency.ofDatum? format))
  let modules ← fields.withDefault "modules" [] (Datum.list? Datum.text?)
  let plugins ← fields.withDefault "plugins" [] (Datum.list? (PluginUse.ofDatum? format))
  let properties ← fields.withDefault "properties" [] (Datum.map? Datum.text?)
  return { id, packaging, dependencies, modules, plugins, properties }

/-- A unit as data. -/
def toDatum (u : BuildUnit) : Datum :=
  .table [
    ("id", .text u.id),
    ("packaging", .text u.packaging),
    ("dependencies", .list (u.dependencies.map UnitDependency.toDatum)),
    ("modules", .texts u.modules),
    ("plugins", .list (u.plugins.map PluginUse.toDatum)),
    ("properties", .table (u.properties.map fun (key, value) => (key, .text value)))]

end BuildUnit

end PhasedBuild
