import PhasedBuild.Error.Record
import PhasedBuild.Run.Action

/-!
# Running executions

The executor runs the executions of a unit in their order and stops at the first that fails. For
each of them it checks the settings of the build, runs the forked work on copies, takes the locks if
units are built side by side, resolves what the step needs, and runs the step.

* `Executor.execute` runs a list of executions on a unit and returns the result together with the
  state of the unit and the actions.
-/

namespace PhasedBuild

/-- Does the work of a step. It may change the state of the unit, also when it fails; then it gives
reasons, the outermost first. The answer may depend on the steps that ran before. -/
abbrev Runner := List StepCall → StepCall → Except (List String) Unit × UnitState

/-- What executions are run with. -/
structure Executor where
  /-- The units on which forked work can be done. -/
  units : UnitGraph
  runner : Runner
  resolver : SharedResolver
  offline : Bool := false
  projectPresent : Bool := true
  /-- Whether steps take locks. -/
  locking : Bool := false

/-- What changes while executions run. -/
structure Progress where
  state : UnitState
  dependencies : Dependencies
  actions : List Action

namespace Progress

/-- Adds actions. -/
def act (p : Progress) (actions : List Action) : Progress :=
  { p with actions := p.actions ++ actions }

/-- Reports an event. -/
def report (p : Progress) (event : Event) : Progress :=
  p.act [.reported event]

end Progress

/-- The result of running executions and what has changed. -/
abbrev Outcome := Except BuildError Unit × Progress

namespace Executor

variable (x : Executor)

/-- The setting of the build that does not allow a step. -/
def unmet? (step : Step) : Option Fault :=
  if step.descriptor.projectRequired && !x.projectPresent then some .needsProject
  else if step.descriptor.onlineRequired && x.offline then some .needsNetwork
  else none

/-- An error at a step of a unit. -/
def errorAt (unit : BuildUnit) (step : String) (fault : Fault) : BuildError :=
  ((fault : BuildError).withUnit unit.id).withStep step

/-- The error of a step that failed. -/
def failure (unit : BuildUnit) (step : Step) (reasons : List String) : BuildError :=
  let error := errorAt unit step.display (.failedStep step.display unit.id reasons)
  ((step.phase.map error.withPhase).getD error).withReasons reasons

/-- What the answer to the call of a step comes to. -/
def concludeStep (unit : BuildUnit) (owner : Owner) (step : Step) (call : StepCall) (p : Progress) :
    Except (List String) Unit × UnitState → Outcome
  | (.ok (), state) =>
    let p := { p with
      state := { state with executed := state.executed ++ [owner.step] } }.act [.ran call]
    (.ok (), p.report (.ofStep unit.id owner.step .succeeded))
  | (.error reasons, state) =>
    let p := { p with state }.act [.ran call]
    let error := failure unit step reasons
    (.error error, p.report (.ofStep unit.id owner.step (.failed error.message)))

/-- Runs a step whose artifacts are there. -/
def runStep (unit : BuildUnit) (owner : Owner) (depth : Nat) (step : Step) (p : Progress) :
    Outcome :=
  let p := p.report (.ofStep unit.id owner.step (.started step.phase))
  let call : StepCall :=
    { owner, unit, step, depth, artifacts := p.dependencies.artifacts, state := p.state }
  concludeStep unit owner step call p (x.runner (Action.calls p.actions) call)

/-- Resolves what a step needs and runs it. -/
def prepareStep (unit : BuildUnit) (owner : Owner) (depth : Nat) (step : Step) (p : Progress) :
    Outcome :=
  let ensured := p.dependencies.ensure (x.resolver.forLane owner.lane) (Action.requests p.actions)
    x.units unit step
  let p := { p with dependencies := ensured.dependencies }.act (ensured.requests.map .requested)
  match ensured.result with
  | .ok () => x.runStep unit owner depth step p
  | .error reasons =>
    let error := errorAt unit owner.step (.unresolvedDependencies unit.id reasons)
    (.error (error.withReasons reasons), p)

/-- Runs a step under its locks. The copy on which its forked work was done does not outlive it. -/
def performStep (lane : Nat) (unit : BuildUnit) (depth : Nat) (step : Step) (p : Progress) :
    Outcome :=
  let owner : Owner := ⟨lane, unit.id, step.display⟩
  let access := Access.ofStep step.isAggregating
  let locks (action : Action) : List Action := if x.locking then [action] else []
  let (result, p) := x.prepareStep unit owner depth step (p.act (locks (.locked owner access)))
  let p := p.act (locks (.unlocked owner access))
  (result, { p with state := { p.state with forked := none } })

/-- Puts the forked work of a step between its events. -/
def bracketFork (unit : BuildUnit) (step : Step) (p : Progress) (work : Progress → Outcome) :
    Outcome :=
  match work (p.report (.ofFork unit.id step.display .started)) with
  | (.ok (), p) => (.ok (), p.report (.ofFork unit.id step.display .succeeded))
  | (.error e, p) => (.error e, p.report (.ofFork unit.id step.display (.failed e.message)))

/-- What the forked work on one unit comes to for the forking unit, which sees the state that it
left if it is the same unit. -/
def concludeTarget (unit target : BuildUnit) (step : Step) (p : Progress) : Outcome → Outcome
  | (.error e, inner) =>
    let event : Event := .ofForkedUnit unit.id step.display target.id (.failed e.message)
    (.error e, { p with actions := inner.actions }.report event)
  | (.ok (), inner) =>
    let event : Event := .ofForkedUnit unit.id step.display target.id .succeeded
    let p := { p with actions := inner.actions }.report event
    let state :=
      if target.id = unit.id then { p.state with forked := some inner.state } else p.state
    (.ok (), { p with state })

/-- Puts the forked work on one unit between its events. It is done on a state of its own. -/
def bracketTarget (unit target : BuildUnit) (step : Step) (executions : List Execution)
    (p : Progress) (work : Progress → Outcome) : Outcome :=
  let started := p.report (.ofForkedUnit unit.id step.display target.id .started)
  concludeTarget unit target step p (work {
    state := if target.id = unit.id then p.state.copy else .ofUnit target
    dependencies := .ofExecutions target.id executions
    actions := started.actions })

/-- Goes on with a step unless the settings of the build do not allow it. A step that was asked for
by its goal fails then, and any other is passed over. -/
def whenAllowed (unit : BuildUnit) (step : Step) (p : Progress) (work : Progress → Outcome) :
    Outcome :=
  match x.unmet? step with
  | none => work p
  | some fault =>
    if step.source = .cli then (.error (errorAt unit step.display fault), p)
    else (.ok (), p.report (.ofStep unit.id step.display (.skipped fault.message)))

mutual

/-- Runs an execution on a unit. -/
def executeOne (lane : Nat) (unit : BuildUnit) (depth : Nat) (p : Progress) : Execution → Outcome
  | ⟨step, .expanded units⟩ =>
    x.whenAllowed unit step p fun p =>
      let forked := if units.isEmpty then (.ok (), p)
        else bracketFork unit step p fun p => executeForked lane unit depth step p units
      match forked with
      | (.error e, p) => (.error e, p)
      | (.ok (), p) => x.performStep lane unit depth step p
  | ⟨step, .pending⟩ => x.whenAllowed unit step p (x.performStep lane unit depth step)
  | ⟨step, .notForking⟩ => x.whenAllowed unit step p (x.performStep lane unit depth step)

/-- Runs the forked work of a step of a unit, one target after the other. -/
def executeForked (lane : Nat) (unit : BuildUnit) (depth : Nat) (step : Step) (p : Progress) :
    List (Forked Execution) → Outcome
  | [] => (.ok (), p)
  | ⟨id, executions⟩ :: rest =>
    match x.units.get? id with
    | none => (.error (errorAt unit step.display (.forkedUnitOutsideBuild id)), p)
    | some target =>
      let done := bracketTarget unit target step executions p fun p =>
        executeList lane target (depth + 1) p executions
      match done with
      | (.error e, p) => (.error e, p)
      | (.ok (), p) => executeForked lane unit depth step p rest

/-- Runs executions on a unit up to the first that fails. -/
def executeList (lane : Nat) (unit : BuildUnit) (depth : Nat) (p : Progress) :
    List Execution → Outcome
  | [] => (.ok (), p)
  | execution :: rest =>
    match executeOne lane unit depth p execution with
    | (.error e, p) => (.error e, p)
    | (.ok (), p) =>
      executeList lane unit depth { p with state := p.state.enterPhase execution.step.phase } rest

end

/-- Runs executions on a unit whose state is given. -/
def execute (lane : Nat) (unit : BuildUnit) (state : UnitState) (executions : List Execution) :
    Except BuildError Unit × UnitState × List Action :=
  let start : Progress :=
    { state, dependencies := .ofExecutions unit.id executions, actions := [] }
  let (result, p) := x.executeList lane unit 0 start executions
  (result, p.state, p.actions)

end Executor

end PhasedBuild
