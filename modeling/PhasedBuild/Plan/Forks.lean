import PhasedBuild.Plan.Mappings
import PhasedBuild.Units.Graph

/-!
# Forked work

A step may need a lifecycle or another goal to run before it, on its own unit or, if it works on the
whole build, on all units that its own one reaches. Forked steps may fork again. A guard holds the
identities that have been planned around and before a forked step on its unit; a step of the guard
is not forked again.

* `Planner.expand` attaches the forked work of an execution.

The expansion ends because every forked step comes from the catalog and each one that is entered is
added to the guard, so the steps of the catalog outside the guard become fewer.
-/

namespace PhasedBuild

/-- The identities of the steps that have been planned. -/
structure ForkGuard where
  keys : List StepKey := []
deriving Repr, Inhabited, DecidableEq

namespace ForkGuard

/-- Whether a step has been planned. -/
def contains (g : ForkGuard) (key : StepKey) : Bool :=
  decide (key ∈ g.keys)

/-- Adds a step. -/
def insert (g : ForkGuard) (key : StepKey) : ForkGuard :=
  if g.contains key then g else ⟨key :: g.keys⟩

/-- The steps of a list that have not been planned. -/
def unplanned (g : ForkGuard) (keys : List StepKey) : List StepKey :=
  keys.filter fun key => !g.contains key

@[simp] theorem contains_insert (g : ForkGuard) (key other : StepKey) :
    (g.insert key).contains other = (decide (other = key) || g.contains other) := by
  unfold insert
  split
  next h =>
    by_cases he : other = key
    · subst he; simp [h]
    · simp [he]
  next h => simp [contains]

/-- Holding an identity twice is holding it. -/
theorem insert_insert_self (g : ForkGuard) (key : StepKey) :
    (g.insert key).insert key = g.insert key := by
  have h : (g.insert key).contains key = true := by simp
  rw [insert, if_pos h]

/-- Holding an identity that is still to be planned leaves fewer of them. -/
theorem length_unplanned_insert_lt {g : ForkGuard} {key : StepKey} {keys : List StepKey}
    (h : key ∈ g.unplanned keys) :
    ((g.insert key).unplanned keys).length < (g.unplanned keys).length := by
  have hsub : (g.insert key).unplanned keys =
      (g.unplanned keys).filter fun other => decide (other ≠ key) := by
    simp only [unplanned, contains_insert, List.filter_filter]
    congr 1
    funext other
    by_cases he : other = key <;> simp [he]
  rw [hsub]
  exact List.length_filter_lt_length_iff_exists.2 ⟨key, h, by simp⟩

end ForkGuard

namespace Planner

variable (p : Planner) (units : UnitGraph)

/-- The error of a step whose forked work on a unit cannot be planned. -/
def notRunnable (parent : Step) (target : BuildUnit) (cause : BuildError) : BuildError :=
  (((Fault.notRunnable parent.display cause.fault : BuildError).withUnit target.id).withStep
    parent.display).withSource cause

/-! ### Overlays -/

/-- The plugin and the goal that an overlay names: a goal of the overlay's own plugin, or a
binding. -/
def overlayGoal (plugin : Coordinate) (goal : String) : Except BuildError (Coordinate × String) :=
  if Text.mentions ':' goal then
    match StepBinding.parse goal with
    | .ok binding => .ok binding
    | .error fault => .error fault
  else .ok (plugin, goal)

/-- The step of a goal that an overlay adds to a phase. -/
def overlayStep (parent : Step) (target : BuildUnit) (phase : OverlayPhase)
    (execution : OverlayExecution) (goal : String) : Except BuildError PlannedStep := do
  let (plugin, goal) ← overlayGoal parent.descriptor.plugin goal
  let descriptor ← p.catalog.resolve plugin goal
  return {
    descriptor
    executionId := parent.executionId
    phase := some phase.id
    source := .forked
    declared := ConfigNode.mergeOptions execution.configuration
      (target.configurationFor plugin parent.executionId) }

/-- The steps that an overlay adds to a phase. -/
def overlaySteps (parent : Step) (target : BuildUnit) (phase : OverlayPhase) :
    Except BuildError (List PlannedStep) :=
  (phase.executions.flatMap fun execution => execution.goals.map (execution, ·)).mapM
    fun (execution, goal) => p.overlayStep parent target phase execution goal

/-- Lays one phase of an overlay over mappings that have its execution point: its steps follow those
that are there, and its configuration is laid over all of them. -/
def overlayPoint (parent : Step) (target : BuildUnit) (mappings : Mappings) (phase : OverlayPhase) :
    Planning Mappings := do
  let point ← p.resolveRef phase.id
  if mappings.hasPoint point then
    match p.overlaySteps parent target phase with
    | .error e => throw e
    | .ok added =>
      let configure (step : PlannedStep) : PlannedStep :=
        match phase.configuration with
        | some configuration => step.overlay configuration
        | none => step
      return mappings.modifyPoint point fun steps => (steps ++ added).map configure
  else return mappings

/-- Lays an overlay of the parent's plugin over mappings. -/
def applyOverlay (parent : Step) (target : BuildUnit) (mappings : Mappings) (id : String) :
    Planning Mappings := do
  match p.catalog.overlay parent.descriptor.plugin id with
  | .error e => throw e
  | .ok overlay => overlay.phases.foldlM (p.overlayPoint parent target) mappings

/-! ### Expansion -/

/-- The steps that a step forks on a unit, before those that the guard holds are left out. -/
def forkedSteps (parent : Step) (target : BuildUnit) : ForkSpec → Planning (List PlannedStep)
  | .phase phase overlay =>
    Planning.mapError (notRunnable parent target) do
      let mappings ← p.mappings target phase
      let mappings := mappings.mapSteps fun step => { step with source := .forked }
      let mappings ← match overlay with
        | some id => p.applyOverlay parent target mappings id
        | none => pure mappings
      return mappings.steps
  | .goal goal =>
    match p.catalog.resolve parent.descriptor.plugin goal with
    | .error e => throw (notRunnable parent target e)
    | .ok descriptor =>
      return [{
        descriptor
        executionId := goal
        source := .forked
        declared := target.configurationFor parent.descriptor.plugin goal }]

/-- The units on which a step of a unit forks. -/
def forkTargets (unit : BuildUnit) (aggregator : Bool) : List BuildUnit :=
  if aggregator then
    match units.reachable unit.id with
    | [] => [unit]
    | reachable => reachable
  else [unit]

mutual

/-- Attaches the forked work of a step of a unit. -/
def expandStep (guard : ForkGuard) (unit : BuildUnit) (step : Step) : Planning Execution :=
  match step.descriptor.fork with
  | none => return { step, forks := .notForking }
  | some fork => do
    let forked ← expandTargets (guard.insert step.key) step fork
      (forkTargets units unit step.isAggregating)
    return { step, forks := .expanded forked }
termination_by (((guard.insert step.key).unplanned p.catalog.keys).length, 2, 0)

/-- The forked work of a step on units. Each unit starts with the same guard. -/
def expandTargets (guard : ForkGuard) (parent : Step) (fork : ForkSpec) :
    List BuildUnit → Planning (List (Forked Execution))
  | [] => return []
  | target :: rest => do
    let steps ← p.forkedSteps parent target fork
    let executions ← expandSteps guard target steps
    let others ← expandTargets guard parent fork rest
    return if executions.isEmpty then others else ⟨target.id, executions⟩ :: others
termination_by targets => ((guard.unplanned p.catalog.keys).length, 1, targets.length)

/-- The executions of forked steps on a unit, those of the guard being left out. -/
def expandSteps (guard : ForkGuard) (target : BuildUnit) :
    List PlannedStep → Planning (List Execution)
  | [] => return []
  | step :: rest =>
    if _h : step.key ∈ guard.unplanned p.catalog.keys then do
      let execution ← expandStep (guard.insert step.key) target step.configure
      let others ← expandSteps (guard.insert step.key) target rest
      return execution :: others
    else expandSteps guard target rest
termination_by steps => ((guard.unplanned p.catalog.keys).length, 0, steps.length)
decreasing_by
  · rw [show step.configure.key = step.key from rfl, ForkGuard.insert_insert_self]
    exact Prod.Lex.left _ _ (ForkGuard.length_unplanned_insert_lt _h)
  · exact Prod.Lex.left _ _ (ForkGuard.length_unplanned_insert_lt _h)
  · exact Prod.Lex.right _ (Prod.Lex.right _ (Nat.lt_succ_self _))

end

/-- Attaches the forked work of an execution, unless that has been done. -/
def expand (unit : BuildUnit) (execution : Execution) : Planning Execution :=
  match execution.forks with
  | .pending => p.expandStep units {} unit execution.step
  | .notForking => return execution
  | .expanded _ => return execution

end Planner

end PhasedBuild
