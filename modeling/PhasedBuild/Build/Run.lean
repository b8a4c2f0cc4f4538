import PhasedBuild.Build.Lane
import PhasedBuild.Build.Stage

/-!
# Builds that are under way

A build goes through its stages one after the other. In each of them the units are started as soon
as their prerequisites have come to an end and a place is free. Each started unit is the work of a
lane of its own. A lane that has done its work delivers the result into a queue and then gives its
place back; the coordinator takes the results from the queue one at a time.

Coordinator and lanes move side by side, so a build is a machine that is driven by moves: of a lane
that works, of a lane that gives its place back, or of the coordinator. Every order of moves is a
way in which the build can go.

* `BuildRun.next` is what a single move does, `BuildRun.after` what a list of moves does.
* `BuildRun.coordinate` is one step of the coordinator. It lists the units that can be started, goes
  through them (`BuildRun.visit`), waits for a result, records it, and turns to the next stage.
* `BuildRun.run` drives a build to its end. A `Pace` says which moves come between the steps of the
  coordinator.
-/

namespace PhasedBuild

/-- What a build goes by. -/
structure BuildRules where
  units : UnitGraph
  policy : FailurePolicy
  /-- How many lanes may have a place at a time. -/
  capacity : Nat
  capacity_pos : 0 < capacity
  work : Work

/-- An action with the segment and the unit in whose build it was done. -/
structure Entry where
  segment : Nat
  unit : String
  action : Action
deriving BEq

/-- How far the coordinator has come in a segment. -/
inductive Position where
  /-- It is about to list the units that can be started. -/
  | listing
  /-- It goes through the units that it has listed. These are left of them. -/
  | walking (listed : List String)
  /-- It waits for a result. -/
  | waiting
  /-- All units of the segment have come to an end. -/
  | ended
deriving Repr, Inhabited, DecidableEq

/-- What a build has come to. -/
structure BuildRun where
  status : BuildStatus := {}
  /-- The states of the units that no lane works on. -/
  states : List (String × UnitState) := []
  summary : BuildSummary := {}
  /-- What has been done, in order. -/
  trace : List Entry := []
  /-- The number of lanes that have been started. -/
  lanes : Nat := 0
  /-- The stage that is being built. -/
  stage : Stage := {}
  /-- The plans of its units that have not been used. -/
  plans : UnitPlans := []
  schedule : Schedule := {}
  position : Position := .ended
  /-- The lanes that work, in the order of their starts. -/
  working : List Lane := []
  /-- The lanes that have delivered their results, in this order, and whether each of them has given
  its place back. -/
  delivered : List (Lane × Bool) := []
  /-- The stages that are still to be built. -/
  rest : List Stage := []

namespace BuildRun

/-- The lanes whose results have not been recorded. -/
def active (b : BuildRun) : List Lane :=
  b.working ++ b.delivered.map (·.1)

/-- The number of places that are taken. -/
def occupied (b : BuildRun) : Nat :=
  b.working.length + b.delivered.countP (!·.2)

/-- Whether the build has come to its end. -/
def isOver (b : BuildRun) : Bool :=
  b.position = .ended && b.rest.isEmpty

/-- Notes an action in the build of a unit. -/
def note (b : BuildRun) (unit : String) (action : Action) : BuildRun :=
  { b with trace := b.trace ++ [⟨b.stage.position, unit, action⟩] }

/-! ### The coordinator -/

/-- Brings a unit to its end. -/
def close (rules : BuildRules) (b : BuildRun) (id : String) (ending : Ending) : BuildRun :=
  { b.note id (.reported (.ofUnit id b.stage.position ending.change)) with
    schedule := b.schedule.mark id ending.status
    status := b.status.after rules.units rules.policy id ending
    summary := b.summary.add (ending.result id b.stage.position) }

/-- The lane that works on a unit if the unit is started. -/
def laneFor (rules : BuildRules) (b : BuildRun) (id : String) (plan : ExecutionPlan) : Lane :=
  let number := b.lanes + 1
  let before := (Keyed.find? id b.states).getD {}
  { number, unit := id, before, work := rules.work number id before plan }

/-- Starts a lane on a unit. -/
def start (rules : BuildRules) (b : BuildRun) (id : String) (plan : ExecutionPlan) : BuildRun :=
  { b.note id (.reported (.ofUnit id b.stage.position .started)) with
    schedule := b.schedule.mark id .running
    plans := Keyed.erase id b.plans
    states := Keyed.erase id b.states
    lanes := b.lanes + 1
    working := b.working ++ [b.laneFor rules id plan] }

/-- Deals with the first of the listed units: it is skipped, fails for want of a plan, is started,
or finds no free place; then the units that are left have to wait as well. -/
def visit (rules : BuildRules) (b : BuildRun) (id : String) (rest : List String) : BuildRun :=
  match b.status.skipReason? id with
  | some reason => { b.close rules id (.skipped reason) with position := .walking rest }
  | none =>
    match b.plans.get id with
    | .error error =>
      { b.close rules id (.failed error 0 none) with
        plans := Keyed.erase id b.plans
        position := .walking rest }
    | .ok plan =>
      if rules.capacity ≤ b.occupied then { b with position := .walking [] }
      else { b.start rules id plan with position := .walking rest }

/-- Records what a lane has delivered. -/
def record (rules : BuildRules) (b : BuildRun) (lane : Lane) : BuildRun :=
  { b.close rules lane.unit lane.ending with
    states := Keyed.insert lane.unit lane.work.state b.states
    position := .listing }

/-- Turns to a stage. -/
def enter (rules : BuildRules) (b : BuildRun) (stage : Stage) (rest : List Stage) : BuildRun :=
  { b with
    stage
    rest
    plans := stage.plans
    schedule := .ofMembers rules.units stage.members
    position := .listing }

/-- One step of the coordinator. While it waits and nothing has been delivered, it does nothing. -/
def coordinate (rules : BuildRules) (b : BuildRun) : BuildRun :=
  match b.position with
  | .listing =>
    if b.schedule.ready.isEmpty && b.active.isEmpty then { b with position := .ended }
    else { b with position := .walking b.schedule.ready }
  | .walking (id :: rest) => b.visit rules id rest
  | .walking [] => { b with position := if b.active.isEmpty then .listing else .waiting }
  | .waiting =>
    match b.delivered with
    | [] => b
    | (lane, _) :: delivered => { b with delivered }.record rules lane
  | .ended =>
    match b.rest with
    | [] => b
    | stage :: rest => b.enter rules stage rest

/-! ### The lanes -/

/-- One of the working lanes does its next action. When none is left, it delivers its result, as
soon as the queue has room for it. -/
def work (rules : BuildRules) (b : BuildRun) (i : Nat) : BuildRun :=
  match b.working[i]? with
  | none => b
  | some lane =>
    match lane.next? with
    | some action =>
      { b.note lane.unit action with
        working := b.working.set i { lane with done := lane.done + 1 } }
    | none =>
      if b.delivered.length < rules.capacity then
        { b with
          working := b.working.eraseIdx i
          delivered := b.delivered ++ [(lane, false)] }
      else b

/-- One of the lanes that have delivered their results gives its place back. -/
def release (b : BuildRun) (i : Nat) : BuildRun :=
  { b with delivered := b.delivered.modify i fun (lane, _) => (lane, true) }

/-! ### Moves -/

/-- What may happen next in a build. -/
inductive Move where
  /-- The working lane at a position goes on. -/
  | work (i : Nat)
  /-- The lane at a position of the queue gives its place back. -/
  | release (i : Nat)
  /-- The coordinator goes on. -/
  | coordinate
deriving Repr, Inhabited, DecidableEq

/-- A build after a move. -/
def next (rules : BuildRules) (b : BuildRun) : Move → BuildRun
  | .work i => b.work rules i
  | .release i => b.release i
  | .coordinate => b.coordinate rules

/-- A build after moves. -/
def after (rules : BuildRules) (b : BuildRun) (moves : List Move) : BuildRun :=
  moves.foldl (next rules) b

@[simp] theorem after_nil (rules : BuildRules) (b : BuildRun) : b.after rules [] = b := rfl

@[simp] theorem after_cons (rules : BuildRules) (b : BuildRun) (move : Move) (moves : List Move) :
    b.after rules (move :: moves) = (b.next rules move).after rules moves := rfl

/-- Moves may be made in two parts. -/
theorem after_append (rules : BuildRules) (b : BuildRun) (moves others : List Move) :
    b.after rules (moves ++ others) = (b.after rules moves).after rules others :=
  List.foldl_append

/-! ### Driving a build to its end -/

/-- Moves that make the lane that started first deliver, if the coordinator waits for a result and
nothing has been delivered. -/
def urging (b : BuildRun) : List Move :=
  match b.position, b.delivered, b.working with
  | .waiting, [], lane :: _ =>
    List.replicate (lane.work.actions.length - lane.done + 1) (.work 0)
  | _, _, _ => []

/-- A step of the coordinator after some moves. -/
def turn (rules : BuildRules) (moves : List Move) (b : BuildRun) : BuildRun :=
  let b := b.after rules moves
  (b.after rules b.urging).coordinate rules

/-- The moves that come before each step of the coordinator. -/
abbrev Pace := Nat → List Move

/-- Drives a build to its end, in at most `n` steps of the coordinator, at a pace. -/
def run (rules : BuildRules) (pace : Pace) : Nat → BuildRun → BuildRun
  | 0, b => b
  | n + 1, b =>
    if b.isOver then b else run rules (fun moment => pace (moment + 1)) n (b.turn rules (pace 0))

/-- As many steps of the coordinator as stages can take: five for every unit that takes part and
five for every stage. -/
def maxTurns : List Stage → Nat
  | [] => 0
  | stage :: rest => 5 * stage.members.length + 5 + maxTurns rest

end BuildRun

end PhasedBuild
