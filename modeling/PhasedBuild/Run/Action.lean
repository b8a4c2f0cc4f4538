import PhasedBuild.Build.Event
import PhasedBuild.Lock.Table
import PhasedBuild.Run.Dependencies
import PhasedBuild.Run.State

/-!
# What happens while a unit is built

The actions of a lane are a list: events that it reports, artifacts that it asks for, locks that it
takes and gives back, and steps that it runs.
-/

namespace PhasedBuild

/-- A step that is run: on what, by whom, and what it sees. -/
structure StepCall where
  owner : Owner
  unit : BuildUnit
  step : Step
  /-- The number of forks around the step. -/
  depth : Nat
  artifacts : List String
  /-- The state of the unit before the step. -/
  state : UnitState
deriving Inhabited, BEq

/-- Something that a lane does. -/
inductive Action where
  | reported (event : Event)
  | requested (request : ResolveRequest)
  /-- The locks of a step are taken. -/
  | locked (owner : Owner) (access : Access)
  | ran (call : StepCall)
  /-- The locks of a step are given back. -/
  | unlocked (owner : Owner) (access : Access)
deriving Inhabited, BEq

namespace Action

/-- The event that an action reports. -/
def event? : Action → Option Event
  | reported event => some event
  | _ => none

/-- The request that an action makes. -/
def request? : Action → Option ResolveRequest
  | requested request => some request
  | _ => none

/-- The step that an action runs. -/
def call? : Action → Option StepCall
  | ran call => some call
  | _ => none

/-- Whether an action belongs to the inside of a unit's build. -/
def isInner : Action → Bool
  | reported event => event.isInner
  | _ => true

/-- The events of a list of actions. -/
def events (actions : List Action) : List Event :=
  actions.filterMap event?

/-- The requests of a list of actions. -/
def requests (actions : List Action) : List ResolveRequest :=
  actions.filterMap request?

/-- The steps that a list of actions runs. -/
def calls (actions : List Action) : List StepCall :=
  actions.filterMap call?

end Action

end PhasedBuild
