import PhasedBuild.Plan.Forks
import PhasedBuild.Task

/-!
# From tasks to plans

* `Planner.plan` turns the tasks of a unit into its plan: a goal becomes one step, a phase all steps
  up to it, and then every step gets the work that it forks.
-/

namespace PhasedBuild.Planner

variable (p : Planner) (units : UnitGraph)

/-- The step of a goal that a unit is asked for, in the version that the unit declares. -/
def goalStep (unit : BuildUnit) (goal : GoalSpec) : Except BuildError PlannedStep := do
  let named ← goal.coordinate p.catalog.resolveShorthand
  let plugin := unit.declaredCoordinate named
  let descriptor ← p.catalog.resolve plugin goal.goal
  return {
    descriptor
    executionId := goal.effectiveId
    source := .cli
    declared := unit.configurationFor plugin goal.effectiveId }

/-- The steps of a task. -/
def taskSteps (unit : BuildUnit) : Task → Planning (List PlannedStep)
  | .goal goal =>
    match p.goalStep unit goal with
    | .ok step => return [step]
    | .error e => throw e
  | .phase phase => do
    let mappings ← p.mappings unit phase
    return mappings.steps

/-- The plan of a unit for tasks. -/
def plan (unit : BuildUnit) (tasks : List Task) : Planning ExecutionPlan := do
  let steps ← tasks.mapM (p.taskSteps unit)
  let executions ← Planning.mapError (·.withUnit unit.id)
    (steps.flatten.mapM fun step => p.expand units unit { step := step.configure })
  return { unit := unit.id, executions }

end PhasedBuild.Planner
