import PhasedBuild.Build.Policy
import PhasedBuild.Plan.Tasks
import PhasedBuild.Units.Workspace

/-!
# Build sessions

A session is all that a build is made from: the units, the planner and the settings.
-/

namespace PhasedBuild

/-- The settings of a build. -/
structure BuildSettings where
  /-- How many units may be built side by side. -/
  threads : Nat := 1
  policy : FailurePolicy := .failFast
  offline : Bool := false
  projectPresent : Bool := true
deriving Repr, Inhabited, DecidableEq

/-- What a build is made from. -/
structure Session where
  workspace : Workspace
  planner : Planner
  settings : BuildSettings := {}
deriving Repr

namespace Session

/-- The units of the build. -/
def units (s : Session) : UnitGraph :=
  s.workspace.units

/-- Whether more than one unit may be built at a time. -/
def isConcurrent (s : Session) : Bool :=
  1 < s.settings.threads

/-- The segments of written tasks. -/
def segments (s : Session) (tasks : List String) : Except BuildError (List Segment) :=
  Segment.ofTasks s.planner.catalog.lookup tasks

/-- The plan of a unit for tasks, and the log of the planning so far. -/
def plan (s : Session) (log : PlanningLog) (unit : BuildUnit) (tasks : List Task) :
    Except BuildError ExecutionPlan × PlanningLog :=
  (s.planner.plan s.units unit tasks).runWith log

/-- The plan of a unit for written tasks that are not put into segments. -/
def planFor (s : Session) (unit : BuildUnit) (tasks : List String) :
    Except BuildError ExecutionPlan := do
  let tasks ← tasks.mapM fun raw =>
    Except.mapError (fun fault => { fault : BuildError }) (Task.parse raw)
  (s.plan {} unit tasks).1

/-- The plans of units for tasks, one after the other. -/
def plansOf (s : Session) (tasks : List Task) (log : PlanningLog) :
    List BuildUnit → List (String × Except BuildError ExecutionPlan) × PlanningLog
  | [] => ([], log)
  | unit :: rest =>
    let (plan, log) := s.plan log unit tasks
    let (plans, log) := s.plansOf tasks log rest
    ((unit.id, plan) :: plans, log)

/-- The plans of all units that take part in a segment, in build order. -/
def plans (s : Session) (log : PlanningLog) (segment : Segment) :
    List (String × Except BuildError ExecutionPlan) × PlanningLog :=
  s.plansOf segment.tasks log (s.workspace.members segment)

end Session

end PhasedBuild
