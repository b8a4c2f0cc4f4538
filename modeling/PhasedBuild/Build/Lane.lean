import PhasedBuild.Build.Ending
import PhasedBuild.Plan.Execution
import PhasedBuild.Run.Action

/-!
# Lanes

Each unit that is started is the work of a lane of its own. What the work comes to is settled when
the lane starts; how far the lane has come with it is what the moments of a build differ in.

* `LaneWork` is what the work of a lane comes to. It tells only of the inside of its unit's build.
* `Lane.ending` is how the unit of a lane comes to its end.
-/

namespace PhasedBuild

/-- What the work of a lane comes to. -/
structure LaneWork where
  result : Except BuildError Unit
  /-- The state of the unit after the work. -/
  state : UnitState
  actions : List Action
  isInner_of_mem : ∀ action ∈ actions, action.isInner = true

/-- Work that fails before anything has been done. -/
def LaneWork.failed (error : BuildError) (state : UnitState) : LaneWork where
  result := .error error
  state := state
  actions := []
  isInner_of_mem := by simp

/-- The work of a lane on a unit whose state and plan are given. -/
abbrev Work := Nat → String → UnitState → ExecutionPlan → LaneWork

/-- A lane that has been started on a unit. -/
structure Lane where
  number : Nat
  unit : String
  /-- The state of the unit before the work. -/
  before : UnitState
  work : LaneWork
  /-- The number of actions that the lane has done. -/
  done : Nat := 0

namespace Lane

/-- The action that the lane does next, if it has not come to its end. -/
def next? (l : Lane) : Option Action :=
  l.work.actions[l.done]?

/-- The number of steps that the lane runs to their end. -/
def steps (l : Lane) : Nat :=
  l.work.state.executed.length - l.before.executed.length

/-- How the unit comes to its end. -/
def ending (l : Lane) : Ending :=
  match l.work.result with
  | .ok () => .succeeded l.steps l.work.state.lastPhase
  | .error error => .failed error l.steps l.work.state.lastPhase

end Lane

end PhasedBuild
