import PhasedBuild.Build.Session
import PhasedBuild.Lifecycle.Record
import PhasedBuild.Lifecycle.Standard
import PhasedBuild.Step.Standard
import PhasedBuild.Units.Record

/-!
# Manifests

A manifest declares the units of a build, and lifecycles, packagings and plugins beside the standard
ones.

* `Manifest.ofDatum?` reads what `Manifest.toDatum` writes.
* `Manifest.session` is a build session with the standard lifecycles, packagings and plugins, and
  `Manifest.bareSession` one without them.
* `Manifest.warnings` tells what looks wrong.
-/

namespace PhasedBuild

/-- What is declared for a build. -/
structure Manifest where
  /-- The unit on which goals run that work on the whole build; without it, the first unit. -/
  root : Option String := none
  /-- The tasks of a build that is asked for none. -/
  defaultTasks : List String := []
  lifecycles : List Lifecycle := []
  /-- The written bindings of the phases of each packaging. -/
  packagings : List (String × List (String × List String)) := []
  plugins : List PluginDescriptor := []
  units : List BuildUnit := []
deriving Inhabited, BEq

namespace Manifest

/-! ### Manifests as data -/

/-- Reads a manifest. -/
def ofDatum? (format : DataFormat) (d : Datum) : Option Manifest := do
  let fields ← Fields.of? format
    ["root", "default_tasks", "lifecycles", "packagings", "plugins", "units"] d
  let root ← fields.optional "root" Datum.text?
  let defaultTasks ← fields.withDefault "default_tasks" [] (Datum.list? Datum.text?)
  let lifecycles ← fields.withDefault "lifecycles" [] (Datum.list? (Lifecycle.ofDatum? format))
  let packagings ← fields.withDefault "packagings" []
    (Datum.map? (Datum.map? (Datum.list? Datum.text?)))
  let plugins ← fields.withDefault "plugins" [] (Datum.list? (PluginDescriptor.ofDatum? format))
  let units ← fields.withDefault "units" [] (Datum.list? (BuildUnit.ofDatum? format))
  return { root, defaultTasks, lifecycles, packagings, plugins, units }

/-- The bindings of a packaging as data. -/
def phasesToDatum (phases : List (String × List String)) : Datum :=
  .table (phases.map fun (phase, bindings) => (phase, .texts bindings))

/-- A manifest as data. -/
def toDatum (m : Manifest) : Datum :=
  .record [
    ("root", m.root.map .text),
    ("default_tasks", some (.texts m.defaultTasks)),
    ("lifecycles", some (.list (m.lifecycles.map Lifecycle.toDatum))),
    ("packagings",
      some (.table (m.packagings.map fun (name, phases) => (name, phasesToDatum phases)))),
    ("plugins", some (.list (m.plugins.map PluginDescriptor.toDatum))),
    ("units", some (.list (m.units.map BuildUnit.toDatum)))]

/-! ### What a manifest adds to -/

/-- The declared lifecycles beside those of a registry. -/
def addLifecycles (m : Manifest) (registry : LifecycleRegistry) :
    Except BuildError LifecycleRegistry :=
  match registry.registerAll m.lifecycles with
  | .ok registry => .ok registry
  | .error fault => .error fault

/-- The standard lifecycles and the declared ones. -/
def registry (m : Manifest) : Except BuildError LifecycleRegistry :=
  match LifecycleRegistry.registerAll {} Standard.lifecycles with
  | .ok registry => m.addLifecycles registry
  | .error fault => .error fault

/-- The standard plugins and the declared ones. -/
def catalog (m : Manifest) : Catalog :=
  Standard.catalog.registerAll m.plugins

/-- The standard packagings and the declared ones. -/
def knownPackagings (m : Manifest) : Packagings :=
  Standard.knownPackagings.registerAll m.packagings

/-- The planner over the standard declarations and those of the manifest. -/
def planner (m : Manifest) : Except BuildError Planner := do
  return { registry := ← m.registry, catalog := m.catalog, packagings := m.knownPackagings }

/-- The units and their root. -/
def workspace (m : Manifest) : Except BuildError Workspace :=
  Workspace.ofUnits m.units m.root

/-- A session over the units of the manifest. -/
def session (m : Manifest) (settings : BuildSettings) : Except BuildError Session := do
  let workspace ← m.workspace
  let planner ← m.planner
  return { workspace, planner, settings }

/-- A session that knows only what the manifest itself declares. -/
def bareSession (m : Manifest) (settings : BuildSettings) : Except BuildError Session := do
  let workspace ← m.workspace
  let registry ← m.addLifecycles {}
  let planner : Planner :=
    { registry, catalog := Catalog.registerAll {} m.plugins
      packagings := Packagings.registerAll {} m.packagings }
  return { workspace, planner, settings }

/-! ### Questions -/

/-- The tasks of a build: those that are asked for, or else the default tasks. -/
def tasks (m : Manifest) (requested : List String) : Except BuildError (List String) :=
  if !requested.isEmpty then .ok requested
  else if m.defaultTasks.isEmpty then .error Fault.noDefaultTasks
  else .ok m.defaultTasks

/-- What looks wrong. -/
def warnings (m : Manifest) : List String :=
  let known := m.knownPackagings
  (m.units.filter fun unit => !known.contains unit.packaging).map (fun unit =>
    "Unit '" ++ unit.id ++ "' uses unknown packaging '" ++ unit.packaging ++
      "'; only explicit goals can run on it") ++
  (m.plugins.filter (·.goals.isEmpty)).map (fun plugin =>
    "Plugin " ++ plugin.coordinate.display ++ " declares no goals")

end Manifest

end PhasedBuild
