import PhasedBuild.Error.Record
import PhasedBuild.Keyed
import PhasedBuild.Step.Descriptor

/-!
# The catalog of plugins

The catalog knows one plugin of each key. A plugin that is registered again replaces its
predecessor; short names stay with the plugin that registered them last.
-/

namespace PhasedBuild

/-- The known plugins by their keys, and their short names. -/
structure Catalog where
  plugins : List (String × PluginDescriptor) := []
  shorthands : List (String × Coordinate) := []
deriving Repr, Inhabited

namespace Catalog

/-- The number of plugins. -/
def size (c : Catalog) : Nat :=
  c.plugins.length

/-- Adds a plugin. Its goals take its coordinate. -/
def register (c : Catalog) (plugin : PluginDescriptor) : Catalog :=
  let owned := { plugin with
    goals := plugin.goals.map fun goal => { goal with plugin := plugin.coordinate } }
  { plugins := Keyed.insert plugin.coordinate.key owned c.plugins
    shorthands := match plugin.shorthand with
      | some shorthand => Keyed.insert shorthand plugin.coordinate c.shorthands
      | none => c.shorthands }

/-- Adds plugins one after the other. -/
def registerAll (c : Catalog) (plugins : List PluginDescriptor) : Catalog :=
  plugins.foldl register c

/-- The plugin that a coordinate names, whatever version it asks for. -/
def plugin (c : Catalog) (coordinate : Coordinate) : Except BuildError PluginDescriptor :=
  match Keyed.find? coordinate.key c.plugins with
  | some plugin => .ok plugin
  | none => .error (Fault.unknownPlugin coordinate)

/-- The descriptor of a goal. -/
def resolve (c : Catalog) (coordinate : Coordinate) (goal : String) :
    Except BuildError StepDescriptor := do
  let plugin ← c.plugin coordinate
  match plugin.goals.find? (·.goal == goal) with
  | some descriptor => .ok descriptor
  | none => .error (Fault.unknownGoal goal plugin.coordinate (plugin.goals.map (·.goal)))

/-- The plugin of a short name. -/
def resolveShorthand (c : Catalog) (shorthand : String) : Except BuildError Coordinate :=
  match Keyed.find? shorthand c.shorthands with
  | some coordinate => .ok coordinate
  | none => .error (Fault.unknownShorthand shorthand)

/-- An overlay that a plugin declares. -/
def overlay (c : Catalog) (coordinate : Coordinate) (id : String) : Except BuildError Overlay := do
  let plugin ← c.plugin coordinate
  match plugin.overlays.find? (·.id == id) with
  | some overlay => .ok overlay
  | none => .error (Fault.unknownOverlay id plugin.coordinate)

/-- The identities of all steps of the catalog. -/
def keys (c : Catalog) : List StepKey :=
  c.plugins.flatMap fun entry => entry.2.goals.map (·.key)

end Catalog

end PhasedBuild
