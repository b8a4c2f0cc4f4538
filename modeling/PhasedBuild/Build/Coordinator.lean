import PhasedBuild.Build.Run
import PhasedBuild.Build.Session
import PhasedBuild.Run.Inner

/-!
# Building

* `Session.build` builds the segments of a task list one after the other. It fails only when the
  task list itself makes no sense; failures of units are told by the summary.
* `Session.buildWith` leaves open what the work of a lane is.
* `Executor.work` is the work of a lane that runs the plan of its unit.
-/

namespace PhasedBuild

/-- The work of a lane that runs the plan of its unit. -/
def Executor.work (x : Executor) : Work :=
  fun lane id state plan =>
    match x.units.get? id with
    | some unit =>
      let outcome := x.execute lane unit state plan.executions
      { result := outcome.1
        state := outcome.2.1
        actions := outcome.2.2
        isInner_of_mem := x.isInner_execute lane unit state plan.executions }
    | none => .failed (Fault.unitOutsideBuild id) state

/-- What a build has come to. -/
structure BuildReport where
  summary : BuildSummary
  actions : List Action
deriving Inhabited

namespace Session

variable (s : Session)

/-- What the build goes by. -/
def rules (work : Work) : BuildRules where
  units := s.units
  policy := s.settings.policy
  capacity := max 1 s.settings.threads
  capacity_pos := Nat.lt_of_lt_of_le Nat.one_pos (Nat.le_max_left _ _)
  work := work

/-- The stages of segments, the first being at position `position`. Each segment is planned when its
turn has come. -/
def stages (log : PlanningLog) (position : Nat) : List Segment → List Stage
  | [] => []
  | segment :: rest =>
    let (plans, log) := s.plans log segment
    { position, members := s.workspace.members segment, plans } :: stages log (position + 1) rest

/-- A build of segments before anything has been done. -/
def start (segments : List Segment) : BuildRun where
  states := Keyed.ofList (s.units.units.map fun unit => (unit.id, UnitState.ofUnit unit))
  summary := { policy := s.settings.policy }
  rest := s.stages {} 0 segments

/-- Builds segments; the lanes do `work`, and `pace` says how the moves of the build follow each
other. -/
def buildSegments (work : Work) (pace : BuildRun.Pace) (segments : List Segment) : BuildRun :=
  let start := s.start segments
  start.run (s.rules work) pace (BuildRun.maxTurns start.rest)

/-- Builds tasks. -/
def buildWith (work : Work) (pace : BuildRun.Pace) (tasks : List String) :
    Except BuildError BuildReport := do
  let segments ← s.segments tasks
  let b := s.buildSegments work pace segments
  return {
    summary := b.summary
    actions := [.reported (.sessionStarted s.units.size segments.length)] ++
      b.trace.map (·.action) ++ [.reported (.sessionEnded b.summary.isSuccess)] }

/-- The executor of the session. Steps take locks only if units are built side by side. -/
def executor (runner : Runner) (resolver : SharedResolver) : Executor where
  units := s.units
  runner := runner
  resolver := resolver
  offline := s.settings.offline
  projectPresent := s.settings.projectPresent
  locking := s.isConcurrent

/-- Builds tasks by running the plans of the units. -/
def build (runner : Runner) (resolver : SharedResolver) (tasks : List String)
    (pace : BuildRun.Pace := fun _ => []) : Except BuildError BuildReport :=
  s.buildWith (s.executor runner resolver).work pace tasks

end Session

end PhasedBuild
