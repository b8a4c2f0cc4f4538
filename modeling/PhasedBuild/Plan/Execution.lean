import PhasedBuild.Step.Descriptor

/-!
# Executions and plans

A plan is the list of executions of a unit. An execution is a configured step together with the work
that it forks, which is a list of executions for each forked unit.

* `PlannedStep.configure` settles the configuration of a step.
* `Execution.flatten` lists the steps in the order in which they run: the forked work of a step
  comes before the step itself.
* `Execution.allForked` lists what is forked on units, at any depth.
-/

namespace PhasedBuild

/-- Where a step comes from. -/
inductive StepSource where
  /-- It was asked for by its goal. -/
  | cli
  /-- It is bound to a phase. -/
  | lifecycle
  /-- Another step forks it. -/
  | forked
deriving Repr, Inhabited, DecidableEq

/-- The name of a source. -/
def StepSource.name : StepSource → String
  | .cli => "cli"
  | .lifecycle => "lifecycle"
  | .forked => "forked"

/-- A step whose configuration is still open. -/
structure PlannedStep where
  descriptor : StepDescriptor
  executionId : String
  phase : Option String := none
  source : StepSource
  /-- What has been declared for it so far. -/
  declared : Option ConfigNode := none
deriving Repr, Inhabited, BEq

/-- A step with its final configuration. -/
structure Step where
  descriptor : StepDescriptor
  executionId : String
  phase : Option String := none
  source : StepSource
  configuration : ConfigNode
deriving Repr, Inhabited, BEq

namespace PlannedStep

/-- The identity of the step. -/
def key (s : PlannedStep) : StepKey :=
  s.descriptor.key

/-- Lays a configuration over what has been declared. -/
def overlay (s : PlannedStep) (dominant : ConfigNode) : PlannedStep :=
  { s with declared := some (dominant.overOption s.declared) }

/-- Settles the configuration. -/
def configure (s : PlannedStep) : Step where
  descriptor := s.descriptor
  executionId := s.executionId
  phase := s.phase
  source := s.source
  configuration := s.descriptor.finalConfiguration s.declared

end PlannedStep

namespace Step

/-- The identity of the step. -/
def key (s : Step) : StepKey :=
  s.descriptor.key

/-- The artifact and version of the plugin, the goal and the execution id. -/
def display (s : Step) : String :=
  s.descriptor.plugin.shortDisplay ++ ":" ++ s.descriptor.goal ++ " (" ++ s.executionId ++ ")"

/-- Whether the step works on all units of the build. -/
def isAggregating (s : Step) : Bool :=
  s.descriptor.aggregator

/-- The scopes whose artifacts the step needs. -/
def requiredScopes (s : Step) : ScopeSet :=
  s.descriptor.requiredScopes

end Step

/-- What is forked on one unit. -/
structure Forked (α : Type) where
  unit : String
  executions : List α
deriving Repr, Inhabited, BEq

/-- The forked work of a step. -/
inductive Forks (α : Type) where
  /-- It is not known yet whether the step forks. -/
  | pending
  /-- The step does not fork. -/
  | notForking
  /-- The step forks the work of these units. -/
  | expanded (units : List (Forked α))
deriving Repr, Inhabited, BEq

/-- A step together with the work that it forks. -/
structure Execution where
  step : Step
  forks : Forks Execution := .pending
deriving Repr, Inhabited, BEq

namespace Execution

/-- The forked work, unit by unit. -/
def forkedUnits (e : Execution) : List (Forked Execution) :=
  match e.forks with
  | .expanded units => units
  | .pending => []
  | .notForking => []

mutual

/-- The steps of an execution on a unit, in the order in which they run. Each comes with its unit
and with the number of forks around it. -/
def flatten (unit : String) (depth : Nat) : Execution → List (String × Nat × Step)
  | ⟨step, .expanded units⟩ => flattenUnits (depth + 1) units ++ [(unit, depth, step)]
  | ⟨step, .pending⟩ => [(unit, depth, step)]
  | ⟨step, .notForking⟩ => [(unit, depth, step)]

/-- `flatten` for the forked units of a step. -/
def flattenUnits (depth : Nat) : List (Forked Execution) → List (String × Nat × Step)
  | [] => []
  | ⟨unit, executions⟩ :: rest => flattenList unit depth executions ++ flattenUnits depth rest

/-- `flatten` for a list of executions on a unit. -/
def flattenList (unit : String) (depth : Nat) : List Execution → List (String × Nat × Step)
  | [] => []
  | execution :: rest => execution.flatten unit depth ++ flattenList unit depth rest

end

mutual

/-- What is forked for an execution on units, at any depth. -/
def allForked : Execution → List (Forked Execution)
  | ⟨_, .expanded units⟩ => allForkedUnits units
  | ⟨_, .pending⟩ => []
  | ⟨_, .notForking⟩ => []

/-- `allForked` for what is forked on units, which comes before all that it forks. -/
def allForkedUnits : List (Forked Execution) → List (Forked Execution)
  | [] => []
  | ⟨unit, executions⟩ :: rest =>
    ⟨unit, executions⟩ :: (allForkedList executions ++ allForkedUnits rest)

/-- `allForked` for a list of executions. -/
def allForkedList : List Execution → List (Forked Execution)
  | [] => []
  | execution :: rest => execution.allForked ++ allForkedList rest

end

end Execution

/-- What a unit has to run. -/
structure ExecutionPlan where
  unit : String
  executions : List Execution
deriving Repr, Inhabited, BEq

namespace ExecutionPlan

/-- The identities of all steps, forked ones included, in the order in which they run. -/
def keys (p : ExecutionPlan) : List StepKey :=
  (Execution.flattenList p.unit 0 p.executions).map fun (_, _, step) => step.key

/-- The scopes whose artifacts any step of the plan itself needs. -/
def requiredScopes (p : ExecutionPlan) : ScopeSet :=
  p.executions.foldl (fun scopes e => scopes ∪ e.step.requiredScopes) .empty

end ExecutionPlan

end PhasedBuild
