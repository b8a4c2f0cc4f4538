import PhasedBuild.Lifecycle.Registry
import PhasedBuild.Plan.Execution
import PhasedBuild.Step.Catalog
import PhasedBuild.Step.Packaging
import PhasedBuild.Units

/-!
# From phases to steps

A request for a phase means all steps that are bound to an execution point up to the requested one.

* `Planner.bindings` collects the bindings of a unit for a lifecycle: those of the lifecycle itself,
  those of the unit's packaging and those that the unit declares.
* `Planner.mappings` arranges their steps by execution point.
* `Planning` is the state that planning carries along: the execution points that have been read and
  the warnings about bindings that cannot be.
-/

namespace PhasedBuild

/-- What plans are made from. -/
structure Planner where
  registry : LifecycleRegistry := {}
  catalog : Catalog := {}
  packagings : Packagings := {}
deriving Repr, Inhabited

/-- What planning leaves behind besides its result. -/
structure PlanningLog where
  cache : RefCache := {}
  warnings : List String := []
deriving Repr, Inhabited

/-- A computation of the planner. The log survives an error. -/
abbrev Planning := ExceptT BuildError (StateM PlanningLog)

namespace Planning

/-- The result and the log of a computation that starts with a given log. -/
def runWith {α : Type} (log : PlanningLog) (p : Planning α) : Except BuildError α × PlanningLog :=
  (ExceptT.run p) log

/-- Reports warnings. -/
def warn (messages : List String) : Planning Unit :=
  modify fun log => { log with warnings := log.warnings ++ messages }

/-- Changes the error of a computation. -/
def mapError {α : Type} (change : BuildError → BuildError) (p : Planning α) : Planning α :=
  tryCatch p fun e => throw (change e)

end Planning

/-- The steps of a lifecycle by execution point, in order. Every point up to the requested one is
there, whether it has steps or not. -/
structure Mappings where
  lifecycle : String
  entries : List (PhaseRef × List PlannedStep)
deriving Repr, Inhabited

namespace Mappings

/-- The steps in the order in which they run. -/
def steps (m : Mappings) : List PlannedStep :=
  m.entries.flatMap (·.2)

/-- Whether the mappings have the execution point. -/
def hasPoint (m : Mappings) (point : PhaseRef) : Bool :=
  m.entries.any (·.1 == point)

/-- Changes every step. -/
def mapSteps (m : Mappings) (change : PlannedStep → PlannedStep) : Mappings :=
  { m with entries := m.entries.map fun (point, steps) => (point, steps.map change) }

/-- Changes the steps of an execution point. -/
def modifyPoint (m : Mappings) (point : PhaseRef)
    (change : List PlannedStep → List PlannedStep) : Mappings :=
  { m with entries := m.entries.map fun entry =>
      if entry.1 = point then (entry.1, change entry.2) else entry }

end Mappings

namespace Planner

variable (p : Planner)

/-- The execution point that a text names, read once. -/
def resolveRef (raw : String) : Planning PhaseRef :=
  modifyGet fun log =>
    let (ref, cache) := log.cache.resolve p.registry raw
    (ref, { log with cache })

/-! ### Bindings -/

/-- A default binding with the version and the configuration that a unit declares for it. -/
def adapt (unit : BuildUnit) (binding : StepBinding) : StepBinding :=
  match unit.plugin? binding.plugin with
  | some use =>
    { binding with
      plugin := use.coordinate
      configuration := use.configurationFor binding.executionId }
  | none => binding

/-- The bindings of the phases of a lifecycle. -/
def lifecycleBindings (lifecycle : Lifecycle) : Planning (List StepBinding) := do
  let read := lifecycle.allPhases.map fun phase => StepBinding.ofSpecs phase.name phase.bindings
  Planning.warn (read.flatMap (·.2))
  return read.flatMap (·.1)

/-- The bindings of the packaging of a unit, which belong to the `default` lifecycle. -/
def packagingBindings (unit : BuildUnit) (lifecycle : Lifecycle) : Planning (List StepBinding) :=
  if lifecycle.id = Standard.default.id then
    match p.packagings.bindings unit.packaging with
    | .error e => throw (e.withUnit unit.id)
    | .ok (bindings, messages) => do
      Planning.warn messages
      return bindings
  else return []

/-- The binding of one goal of a declared execution. A goal without a phase has none. -/
def declaredBinding? (use : PluginUse) (execution : ExecutionDecl) (goal : String) :
    Except BuildError (Option StepBinding) := do
  let phase ← match execution.phase with
    | some phase => pure (some phase)
    | none => (p.catalog.resolve use.coordinate goal).map (·.phase)
  return phase.map fun phase =>
    { plugin := use.coordinate
      goal
      phase := some phase
      priority := execution.priority
      executionId := execution.id
      configuration := use.configurationFor execution.id }

/-- The bindings that a unit declares. -/
def declaredBindings (unit : BuildUnit) : Except BuildError (List StepBinding) := do
  let goals := unit.plugins.flatMap fun use => use.executions.flatMap fun execution =>
    execution.goals.map (use, execution, ·)
  let bindings ← goals.mapM fun (use, execution, goal) => p.declaredBinding? use execution goal
  return bindings.filterMap id

/-- All bindings of a unit for a lifecycle. -/
def bindings (unit : BuildUnit) (lifecycle : Lifecycle) : Planning (List StepBinding) := do
  let fromLifecycle ← lifecycleBindings lifecycle
  let fromPackaging ← p.packagingBindings unit lifecycle
  let declared ← liftExcept (p.declaredBindings unit)
  return (fromLifecycle ++ fromPackaging).map (adapt unit) ++ declared
where
  /-- A result without a log. -/
  liftExcept {α : Type} (e : Except BuildError α) : Planning α :=
    ExceptT.mk (pure e)

/-! ### Mappings -/

/-- The last execution point of a request. A bare phase includes the point after it. -/
def lastPoint (requested : PhaseRef) : PhaseRef :=
  match requested.side with
  | .during => ⟨.after, requested.phase⟩
  | _ => requested

/-- A binding with its position in the order, if that is not behind `last`. -/
def place? (order : PhaseOrder) (last : Nat) (binding : StepBinding) :
    Planning (Option (Nat × StepBinding)) :=
  match binding.phase with
  | none => return none
  | some phase => do
    let point ← p.resolveRef phase
    return ((order.position? point).filter (· ≤ last)).map (·, binding)

/-- Whether one placed binding may stand before another: by position, then by priority. -/
def precedes (a b : Nat × StepBinding) : Bool :=
  a.1 < b.1 || (a.1 = b.1 && a.2.priority ≤ b.2.priority)

/-- The step of a binding. -/
def stepOf (source : StepSource) (binding : StepBinding) : Except BuildError PlannedStep := do
  let descriptor ← p.catalog.resolve binding.plugin binding.goal
  return {
    descriptor
    executionId := binding.executionId
    phase := binding.phase
    source
    declared := binding.configuration }

/-- The steps of a unit for a requested phase by execution point. -/
def mappings (unit : BuildUnit) (raw : String) : Planning Mappings := do
  let requested ← p.resolveRef raw
  let lifecycle ← match p.registry.lifecycleOf requested.phase with
    | .ok lifecycle => pure lifecycle
    | .error e => throw (e.withUnit unit.id)
  let order ← match p.registry.order lifecycle.id with
    | .ok order => pure order
    | .error e => throw e
  let last ← match order.position? (lastPoint requested) with
    | some last => pure last
    | none => throw ((Fault.phaseOutsideLifecycle raw lifecycle.id : BuildError).withPhase raw)
  let bindings ← p.bindings unit lifecycle
  let placed ← bindings.mapM (p.place? order last)
  let sorted := (placed.filterMap id).mergeSort precedes
  let steps ← sorted.mapM fun (position, binding) =>
    match p.stepOf .lifecycle binding with
    | .ok step => pure (position, step)
    | .error e => throw (e.withUnit unit.id)
  let entries := (order.points.take (last + 1)).zipIdx.map fun (point, i) =>
    (point, (steps.filter (·.1 = i)).map (·.2))
  return { lifecycle := lifecycle.id, entries }

end Planner

end PhasedBuild
