import PhasedBuild.Configuration
import PhasedBuild.Coordinate
import PhasedBuild.Scope

/-!
# Steps and their plugins

A plugin offers goals. The descriptor of a goal says what a step that runs it needs: parameters,
artifacts, forked work and settings of the build.

* `StepDescriptor.defaultConfiguration` is what the parameters alone say.
* `StepDescriptor.finalConfiguration` lays what was declared for a step over that, parameter by
  parameter.
-/

namespace PhasedBuild

/-- A parameter of a goal. -/
structure Parameter where
  name : String
  /-- A second name under which it may be configured. -/
  otherName : Option String := none
  /-- What is evaluated when the step runs. -/
  expression : Option String := none
  defaultValue : Option String := none
  implementation : Option String := none
deriving Repr, Inhabited, DecidableEq

/-- Work that must be done before a step runs. -/
inductive ForkSpec where
  /-- A lifecycle up to a phase, with an overlay of the step's plugin if one is named. -/
  | phase (phase : String) (overlay : Option String)
  /-- Another goal of the step's plugin. -/
  | goal (goal : String)
deriving Repr, Inhabited, DecidableEq

/-- Goals that an overlay adds to a phase. -/
structure OverlayExecution where
  /-- Goals of the overlay's plugin, or bindings in full. -/
  goals : List String := []
  configuration : Option ConfigNode := none
deriving Repr, Inhabited, BEq

/-- What an overlay adds to one phase. -/
structure OverlayPhase where
  id : String
  executions : List OverlayExecution := []
  /-- A configuration that is laid over every step of the phase. -/
  configuration : Option ConfigNode := none
deriving Repr, Inhabited, BEq

/-- Additions to a lifecycle that a plugin declares for the lifecycles that its steps fork. -/
structure Overlay where
  id : String
  phases : List OverlayPhase := []
deriving Repr, Inhabited, BEq

/-- What is known about a goal of a plugin. -/
structure StepDescriptor where
  plugin : Coordinate
  goal : String
  /-- The phase of an execution that names none. -/
  phase : Option String := none
  parameters : List Parameter := []
  fork : Option ForkSpec := none
  /-- Whether it works on all units of the build instead of its own. -/
  aggregator : Bool := false
  onlineRequired : Bool := false
  projectRequired : Bool := true
  requiresResolution : Option ResolutionScope := none
  requiresCollection : Option ResolutionScope := none
deriving Repr, Inhabited, DecidableEq

namespace StepDescriptor

/-- The identity of the step. -/
def key (d : StepDescriptor) : StepKey :=
  ⟨d.plugin.key, d.goal⟩

/-- The plugin with its version, and the goal. -/
def display (d : StepDescriptor) : String :=
  d.plugin.display ++ ":" ++ d.goal

/-- Whether the step needs forked work. -/
def isForking (d : StepDescriptor) : Bool :=
  d.fork.isSome

/-- The first parameter of a name. -/
def parameter? (d : StepDescriptor) (name : String) : Option Parameter :=
  d.parameters.find? (·.name == name)

/-- The scopes whose artifacts the step needs. -/
def requiredScopes (d : StepDescriptor) : ScopeSet :=
  let scopes (r : Option ResolutionScope) := (r.map (·.scopes)).getD .empty
  scopes d.requiresResolution ∪ scopes d.requiresCollection

end StepDescriptor

/-- The node of a parameter that has an expression or a default. -/
def Parameter.defaultNode? (p : Parameter) : Option ConfigNode :=
  if p.expression.isNone && p.defaultValue.isNone then none
  else some {
    name := p.name
    value := p.expression
    attributes := (p.defaultValue.map (ConfigNode.defaultValueKey, ·)).toList }

/-- The node that a configuration declares for a parameter, by its name or else by its other
name. -/
def Parameter.declaredNode? (p : Parameter) (declared : ConfigNode) : Option ConfigNode :=
  (declared.child? p.name).or (p.otherName.bind declared.child?)

namespace StepDescriptor

/-- The configuration that the parameters alone give. -/
def defaultConfiguration (d : StepDescriptor) : ConfigNode :=
  { name := ConfigNode.rootName, children := d.parameters.filterMap Parameter.defaultNode? }

/-- The final node of a parameter: what was declared over the default. A parameter that neither
mentions has none. -/
def finalNode? (d : StepDescriptor) (declared : Option ConfigNode) (p : Parameter) :
    Option ConfigNode :=
  let node := ConfigNode.mergeOptions (declared.bind p.declaredNode?)
    (d.defaultConfiguration.child? p.name)
  node.map fun node =>
    let node := node.renamed p.name
    match p.implementation with
    | some implementation => node.fillAttribute ConfigNode.implementationKey implementation
    | none => node

/-- The configuration that a step runs with: the final nodes of its parameters and nothing else. -/
def finalConfiguration (d : StepDescriptor) (declared : Option ConfigNode) : ConfigNode :=
  { name := ConfigNode.rootName, children := d.parameters.filterMap (d.finalNode? declared) }

end StepDescriptor

/-- What is known about a plugin. -/
structure PluginDescriptor where
  coordinate : Coordinate
  /-- A short name for the plugin. -/
  shorthand : Option String := none
  goals : List StepDescriptor := []
  overlays : List Overlay := []
deriving Repr, Inhabited, BEq

end PhasedBuild
