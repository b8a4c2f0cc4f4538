import PhasedBuild.Configuration
import PhasedBuild.Coordinate
import PhasedBuild.Scope

/-!
# Build units

A unit is one project of a build: what it produces, the units it depends on, the units it groups as
its modules, and the plugins that it uses.

* `PluginUse.configurationFor` is the configuration of an execution over that of its plugin.
-/

namespace PhasedBuild

/-- A dependency on another unit of the build. -/
structure UnitDependency where
  unit : String
  /-- The declared scope; none is read as `compile`. -/
  scope : Option Scope := none
deriving Repr, Inhabited, DecidableEq

/-- Goals of a plugin that a unit runs together. -/
structure ExecutionDecl where
  id : String := "default"
  /-- The phase; without it each goal runs in its own. -/
  phase : Option String := none
  goals : List String := []
  priority : Int := 0
  configuration : Option ConfigNode := none
deriving Repr, Inhabited, BEq

/-- A plugin that a unit uses. -/
structure PluginUse where
  coordinate : Coordinate
  /-- The configuration that all executions share. -/
  configuration : Option ConfigNode := none
  executions : List ExecutionDecl := []
deriving Repr, Inhabited, BEq

namespace PluginUse

/-- The first execution of an id. -/
def execution? (use : PluginUse) (id : String) : Option ExecutionDecl :=
  use.executions.find? (·.id == id)

/-- The configuration of an execution over that of the plugin. -/
def configurationFor (use : PluginUse) (id : String) : Option ConfigNode :=
  ConfigNode.mergeOptions ((use.execution? id).bind (·.configuration)) use.configuration

end PluginUse

/-- One project of a build. -/
structure BuildUnit where
  id : String
  packaging : String := "jar"
  dependencies : List UnitDependency := []
  /-- The units that this one groups. -/
  modules : List String := []
  plugins : List PluginUse := []
  /-- Named values, in the order of their names. -/
  properties : List (String × String) := []
deriving Repr, Inhabited, BEq

namespace BuildUnit

/-- The first use of a plugin, whatever version is asked for. -/
def plugin? (unit : BuildUnit) (coordinate : Coordinate) : Option PluginUse :=
  unit.plugins.find? (·.coordinate.key == coordinate.key)

/-- The configuration that a unit declares for an execution of a plugin. -/
def configurationFor (unit : BuildUnit) (coordinate : Coordinate) (id : String) :
    Option ConfigNode :=
  (unit.plugin? coordinate).bind (·.configurationFor id)

/-- The coordinate of a plugin with the version that the unit declares, if it does. -/
def declaredCoordinate (unit : BuildUnit) (coordinate : Coordinate) : Coordinate :=
  ((unit.plugin? coordinate).map (·.coordinate)).getD coordinate

/-- The units that this one depends on, each once. -/
def prerequisites (unit : BuildUnit) : List String :=
  (unit.dependencies.map (·.unit)).eraseDups

end BuildUnit

end PhasedBuild
