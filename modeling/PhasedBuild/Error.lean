import PhasedBuild.Coordinate
import PhasedBuild.Phase.Point
import PhasedBuild.Text.Quoted

/-!
# What can go wrong in a build

`Fault` lists the causes; `Fault.kind` decides how a build reacts to one and `Fault.message` words
it. -/

namespace PhasedBuild

/-- How a build reacts to an error. -/
inductive ErrorKind where
  /-- What was asked for or declared makes no sense. -/
  | configuration
  /-- Something that is named cannot be found. -/
  | resolution
  /-- A step failed while it ran. -/
  | execution
  /-- A step cannot run under the settings of the build. -/
  | precondition
deriving Repr, Inhabited, DecidableEq

namespace ErrorKind

/-- All kinds. -/
def all : List ErrorKind :=
  [.configuration, .resolution, .execution, .precondition]

/-- The name of a kind. -/
def name : ErrorKind → String
  | .configuration => "configuration"
  | .resolution => "resolution"
  | .execution => "execution"
  | .precondition => "precondition"

/-- The kind of a name. -/
def ofName? (s : String) : Option ErrorKind :=
  all.find? (·.name == s)

end ErrorKind

/-- The cause of an error. -/
inductive Fault where
  /-- A task without any text. -/
  | emptyTask
  /-- A task that names neither a phase nor a goal. -/
  | invalidTask (raw : String)
  /-- A build without tasks. -/
  | noTasks
  /-- A build without tasks whose manifest has no default tasks. -/
  | noDefaultTasks
  | invalidCoordinate (text : String)
  | invalidBinding (spec : String)
  | unknownPackaging (packaging : String)
  /-- An edge between phases that closes a cycle. -/
  | phaseCycle (node next : Node)
  | duplicatePhase (phase lifecycle : String)
  /-- A lifecycle whose phases have no order. -/
  | unorderedLifecycle (lifecycle : String) (cause : Fault)
  /-- A phase name that belongs to another lifecycle. -/
  | phaseTaken (phase lifecycle owner : String)
  | unknownLifecycle (lifecycle : String)
  | unknownPhase (phase : String) (available : List String)
  /-- A requested execution point that its lifecycle does not have. -/
  | phaseOutsideLifecycle (raw lifecycle : String)
  | noUnits
  | unknownRoot (root : String)
  | duplicateUnit (unit : String)
  | unknownDependency (dependency unit : String)
  | unknownModule (module unit : String)
  /-- Units that depend on each other or on units that do. -/
  | dependencyCycle (units : List String)
  /-- A unit that was to be built without a plan. -/
  | unplannedUnit (unit : String)
  /-- A unit that was to be built and does not exist. -/
  | unitOutsideBuild (unit : String)
  | unknownPlugin (plugin : Coordinate)
  | unknownGoal (goal : String) (plugin : Coordinate) (available : List String)
  | unknownShorthand (shorthand : String)
  | unknownOverlay (overlay : String) (plugin : Coordinate)
  /-- A step whose forked work cannot be planned. -/
  | notRunnable (step : String) (cause : Fault)
  /-- Artifacts that could not be found, with the chain of reasons. -/
  | unresolvedDependencies (unit : String) (reasons : List String)
  | forkedUnitOutsideBuild (unit : String)
  /-- A step that failed, with the chain of reasons. -/
  | failedStep (step unit : String) (reasons : List String)
  | needsProject
  | needsNetwork
  /-- A cause that is stated in words. -/
  | stated (kind : ErrorKind) (message : String)
deriving Repr, Inhabited, DecidableEq

namespace Fault

/-- The kind of a fault. -/
def kind : Fault → ErrorKind
  | .unknownPlugin _ | .unknownGoal _ _ _ | .unknownShorthand _ | .unknownOverlay _ _
  | .notRunnable _ _ | .unresolvedDependencies _ _ | .forkedUnitOutsideBuild _ => .resolution
  | .failedStep _ _ _ => .execution
  | .needsProject | .needsNetwork => .precondition
  | .stated kind _ => kind
  | _ => .configuration

/-- A chain of reasons in one text. -/
def chainText (reasons : List String) : String :=
  String.intercalate ": " reasons

/-- The wording of a fault. -/
def message : Fault → String
  | .emptyTask => "Empty task"
  | .invalidTask raw =>
    "Invalid task '" ++ raw ++ "': you must specify a valid lifecycle phase, " ++
      "or a goal in the format plugin:goal or pluginGroupId:pluginArtifactId[:pluginVersion]:goal"
  | .noTasks =>
    "No goals have been specified for this build. " ++
      "You must specify a valid lifecycle phase or a goal"
  | .noDefaultTasks =>
    "No goals have been specified for this build and the manifest declares no default_tasks"
  | .invalidCoordinate text =>
    "Invalid plugin coordinate '" ++ text ++ "'. Expected group:artifact[:version]"
  | .invalidBinding spec =>
    "Invalid step binding '" ++ spec ++
      "'. Expected group:artifact:goal or group:artifact:version:goal"
  | .unknownPackaging packaging => "Unknown packaging '" ++ packaging ++ "'"
  | .phaseCycle node next =>
    "Cycle detected in lifecycle phases between '" ++ node.display ++ "' and '" ++ next.display ++
      "'"
  | .duplicatePhase phase lifecycle =>
    "Found duplicated phase '" ++ phase ++ "' in '" ++ lifecycle ++ "' lifecycle"
  | .unorderedLifecycle lifecycle cause => "Lifecycle '" ++ lifecycle ++ "': " ++ cause.message
  | .phaseTaken phase lifecycle owner =>
    "Phase '" ++ phase ++ "' of lifecycle '" ++ lifecycle ++
      "' is already declared by lifecycle '" ++ owner ++ "'"
  | .unknownLifecycle lifecycle => "Unknown lifecycle '" ++ lifecycle ++ "'"
  | .unknownPhase phase available =>
    "Unknown lifecycle phase \"" ++ phase ++
      "\". You must specify a valid lifecycle phase or a goal in the format " ++
      "<plugin-prefix>:<goal> or " ++
      "<plugin-group-id>:<plugin-artifact-id>[:<plugin-version>]:<goal>. " ++
      "Available lifecycle phases are: " ++ String.intercalate ", " available ++ "."
  | .phaseOutsideLifecycle raw lifecycle =>
    "Phase '" ++ raw ++ "' is not part of lifecycle '" ++ lifecycle ++ "'"
  | .noUnits => "The build contains no units"
  | .unknownRoot root => "Unknown root unit '" ++ root ++ "'"
  | .duplicateUnit unit => "Duplicate unit id: " ++ unit
  | .unknownDependency dependency unit =>
    "Unknown dependency '" ++ dependency ++ "' in unit '" ++ unit ++
      "': no unit with that id exists"
  | .unknownModule module unit => "Unknown module '" ++ module ++ "' in unit '" ++ unit ++ "'"
  | .dependencyCycle units =>
    "Cycle detected in unit dependencies. Involved units: " ++ Text.quotedList units
  | .unplannedUnit unit => "No execution plan was calculated for unit '" ++ unit ++ "'"
  | .unitOutsideBuild unit => "Unit '" ++ unit ++ "' is not part of the build"
  | .unknownPlugin plugin => "Plugin " ++ plugin.display ++ " could not be found"
  | .unknownGoal goal plugin available =>
    "Could not find goal '" ++ goal ++ "' in plugin " ++ plugin.display ++
      " among available goals " ++ String.intercalate ", " available
  | .unknownShorthand shorthand =>
    "No plugin found for prefix '" ++ shorthand ++ "' in the current project"
  | .unknownOverlay overlay plugin =>
    "Lifecycle '" ++ overlay ++ "' is not declared by plugin " ++ plugin.display
  | .notRunnable step cause => "Step " ++ step ++ " is not runnable: " ++ cause.message
  | .unresolvedDependencies unit reasons =>
    "Could not resolve dependencies for unit " ++ unit ++ ": " ++ chainText reasons
  | .forkedUnitOutsideBuild unit => "Forked unit '" ++ unit ++ "' is not part of the build"
  | .failedStep step unit reasons =>
    "Failed to execute goal " ++ step ++ " on unit " ++ unit ++ ": " ++ chainText reasons
  | .needsProject => "Goal requires a project to execute but there is no project present"
  | .needsNetwork => "Goal requires online mode for execution but the build is offline"
  | .stated _ message => message

end Fault

end PhasedBuild
