import PhasedBuild.Step.Catalog
import PhasedBuild.Text.Characters

/-!
# Tasks and segments

A task is a phase to be reached or a goal to be run.

* `Task.parse` reads a task: a text with a colon is a goal, `plugin:goal[@id]`, any other a phase.
* `Task.display` writes it.
* `GoalLookup` is what goals are looked up in.
* `Segment.ofTasks` groups consecutive tasks that run on the same units: goals that work on the
  whole build run once, everything else runs on each unit.
-/

namespace PhasedBuild

/-- Where the short names and the goals of plugins are looked up: a catalog, or anything else that
knows some. -/
structure GoalLookup where
  shorthand : String → Except BuildError Coordinate
  goal : Coordinate → String → Except BuildError StepDescriptor

/-- What a catalog says about short names and goals. -/
def Catalog.lookup (c : Catalog) : GoalLookup where
  shorthand := c.resolveShorthand
  goal := c.resolve

/-- How a task names a plugin. -/
inductive PluginRef where
  | shorthand (name : String)
  | coordinate (coordinate : Coordinate)
deriving Repr, Inhabited, DecidableEq

/-- The written form of a plugin's name. -/
def PluginRef.display : PluginRef → String
  | .shorthand name => name
  | .coordinate c => c.display

/-- A goal that is asked for. -/
structure GoalSpec where
  plugin : PluginRef
  goal : String
  executionId : Option String := none
deriving Repr, Inhabited, DecidableEq

namespace GoalSpec

/-- The execution id of a goal that is asked for without one. -/
def defaultExecutionId : String := "default-cli"

/-- The execution id, or its default. -/
def effectiveId (g : GoalSpec) : String :=
  g.executionId.getD defaultExecutionId

/-- The written form. -/
def display (g : GoalSpec) : String :=
  g.plugin.display ++ ":" ++ g.goal ++
    match g.executionId with
    | some id => "@" ++ id
    | none => ""

/-- The plugin and the goal in front of an execution id. -/
def parseTarget? (spec : String) : Option (PluginRef × String) :=
  let parts := Text.splitOn ':' spec
  if parts.any (·.isEmpty) then none
  else match parts with
    | [shorthand, goal] => some (.shorthand shorthand, goal)
    | [group, artifact, goal] => some (.coordinate { group, artifact }, goal)
    | [group, artifact, version, goal] =>
      some (.coordinate { group, artifact, version := some version }, goal)
    | _ => none

/-- Reads a goal. What follows the first `@` is the execution id, which must not be empty. -/
def parse? (raw : String) : Option GoalSpec :=
  match Text.splitOnce? '@' raw with
  | none => (parseTarget? raw).map fun (plugin, goal) => { plugin, goal }
  | some (spec, id) =>
    if id.isEmpty then none
    else (parseTarget? spec).map fun (plugin, goal) => { plugin, goal, executionId := some id }

/-- Reads a goal, or names the text that is none. -/
def parse (raw : String) : Except Fault GoalSpec :=
  match parse? raw with
  | some goal => .ok goal
  | none => .error (.invalidTask raw)

/-- The plugin of a goal, a short name being looked up. -/
def coordinate (g : GoalSpec) (shorthand : String → Except BuildError Coordinate) :
    Except BuildError Coordinate :=
  match g.plugin with
  | .shorthand name => shorthand name
  | .coordinate c => .ok c

end GoalSpec

/-- Something that a build is asked to do. -/
inductive Task where
  | phase (name : String)
  | goal (goal : GoalSpec)
deriving Repr, Inhabited, DecidableEq

namespace Task

/-- Reads a task. Blanks around it do not count. -/
def parse (raw : String) : Except Fault Task :=
  let raw := Text.trim raw
  if raw.isEmpty then .error .emptyTask
  else if Text.mentions ':' raw then (GoalSpec.parse raw).map .goal
  else .ok (.phase raw)

/-- The written form. -/
def display : Task → String
  | .phase name => name
  | .goal g => g.display

/-- Whether a task asks for a goal. -/
def isGoal : Task → Bool
  | .phase _ => false
  | .goal _ => true

/-- Whether a task runs once for the whole build: a goal does if it works on all units or needs no
project. -/
def isAggregating (task : Task) (lookup : GoalLookup) : Except BuildError Bool :=
  match task with
  | .phase _ => .ok false
  | .goal g => do
    let plugin ← g.coordinate lookup.shorthand
    let descriptor ← lookup.goal plugin g.goal
    .ok (descriptor.aggregator || !descriptor.projectRequired)

end Task

/-- Consecutive tasks that run on the same units. -/
structure Segment where
  tasks : List Task
  aggregating : Bool
deriving Repr, Inhabited, DecidableEq

namespace Segment

/-- The tasks, and whether they run once for the whole build. -/
def display (s : Segment) : String :=
  String.intercalate " " (s.tasks.map Task.display) ++
    (if s.aggregating then " (aggregating)" else "")

/-- Puts a task in front of segments, into the first one if that has the same flag. -/
def push (task : Task) (aggregating : Bool) : List Segment → List Segment
  | [] => [⟨[task], aggregating⟩]
  | s :: rest =>
    if s.aggregating = aggregating then ⟨task :: s.tasks, aggregating⟩ :: rest
    else ⟨[task], aggregating⟩ :: s :: rest

/-- Reads a task and says whether it runs once for the whole build. -/
def classify (lookup : GoalLookup) (raw : String) : Except BuildError (Task × Bool) :=
  match Task.parse raw with
  | .error fault => .error fault
  | .ok task => (task.isAggregating lookup).map fun aggregating => (task, aggregating)

/-- The segments of a list of written tasks, or the error of the first one that is no task. -/
def ofTasks (lookup : GoalLookup) (raw : List String) : Except BuildError (List Segment) :=
  if raw.isEmpty then .error Fault.noTasks
  else do
    let tasks ← raw.mapM (classify lookup)
    .ok (tasks.foldr (fun (task, aggregating) segments => push task aggregating segments) [])

end Segment

end PhasedBuild
