import PhasedBuild.Build.Coordinator
import PhasedBuild.CommandLine.Invocation
import PhasedBuild.CommandLine.Listing
import PhasedBuild.Manifest
import PhasedBuild.Run.Simulation
import PhasedBuild.Toml.Reader

/-!
# What a command line comes to

* `Invocation.outcome` carries out an invocation. All that it depends on is given with it: the
  contents of the two files that it may read, the environment and the name of the directory.
-/

namespace PhasedBuild.CommandLine

/-- What a path leads to. -/
inductive FileState where
  | missing
  /-- There is something, but no text can be read from it. -/
  | unreadable
  | text (content : String)
deriving Repr, Inhabited, DecidableEq

/-- What an invocation depends on beside its words. -/
structure Surroundings where
  directory : String
  cores : Nat
  environment : String → Option String
  /-- What the path of the settings leads to. -/
  settingsFile : FileState
  /-- What the path of the manifest leads to. -/
  manifestFile : FileState

/-- What a command line comes to. -/
structure Outcome where
  output : String := ""
  /-- What went wrong. -/
  fault : Option String := none
  exitCode : Nat := 0
deriving Repr, Inhabited, DecidableEq

namespace Outcome

/-- Failure with a message, perhaps after some output. -/
def failure (message : String) (output : String := "") : Outcome :=
  { output, fault := some message, exitCode := 1 }

/-- A command line that makes no sense. -/
def misuse : Outcome :=
  { exitCode := 2 }

/-- The end of a program that cannot go on. -/
def abort : Outcome :=
  { exitCode := 101 }

/-- A result, or failure. -/
def ofExcept : Except String Outcome → Outcome
  | .ok outcome => outcome
  | .error message => failure message

end Outcome

/-- A result, or the wording of its error. -/
def described {α : Type} (result : Except BuildError α) : Except String α :=
  result.mapError BuildError.display

namespace Invocation

/-- The name of a file of a directory. -/
def pathIn (directory name : String) : String :=
  if directory.toList.getLast? = some '/' then directory ++ name else directory ++ "/" ++ name

/-- The path of the settings. -/
def settingsPath (i : Invocation) (directory : String) : String :=
  i.config.getD (pathIn directory "reactor.toml")

/-- The path of the manifest. -/
def manifestPath (i : Invocation) (directory : String) : String :=
  i.manifest.getD (pathIn directory "build.toml")

variable (i : Invocation) (s : Surroundings)

/-! ### Files -/

/-- The settings of the file and the path that they come from. Without a file at the usual place
there are no settings in one. -/
def fileSettings : Except String (Settings × Option String) :=
  let path := i.settingsPath s.directory
  match s.settingsFile, i.config with
  | .missing, none => .ok ({}, none)
  | .text content, _ =>
    match (Toml.read? content).bind (Settings.ofDatum? .toml) with
    | some settings => .ok (settings, some path)
    | none => .error "Failed to parse reactor.toml"
  | _, _ => .error ("Failed to read config file: " ++ path)

/-- The settings of all layers and the path of those of the file. -/
def settings : Except String (Settings × Option String) := do
  let (settings, source) ← i.fileSettings s
  match settings.withEnvironment s.cores s.environment with
  | (some fault, _) => throw fault.message
  | (none, settings) => return (settings.withOverrides i.overrides, source)

/-- The manifest. -/
def manifestContent : Except String Manifest :=
  let path := i.manifestPath s.directory
  match s.manifestFile with
  | .text content =>
    match (Toml.read? content).bind (Manifest.ofDatum? .toml) with
    | some manifest => .ok manifest
    | none => .error ("Invalid build manifest: " ++ path)
  | _ => .error ("Failed to read build manifest: " ++ path)

/-- The manifest, or an empty one if there is none. -/
def manifestOrEmpty : Except String Manifest :=
  match s.manifestFile with
  | .missing => .ok {}
  | _ => i.manifestContent s

/-! ### Commands -/

/-- Lists the phases of one lifecycle or of all. -/
def listPhases (lifecycle : Option String) (points : Bool) : Except String Outcome := do
  let registry ← described (← i.manifestOrEmpty s).registry
  let ids := match lifecycle with
    | some id => [id]
    | none => registry.ids
  let listings ← ids.mapM fun id => do
    return Listing.phases id (← described (registry.order id)) points
  return { output := String.join listings }

/-- The session of the manifest and the tasks that it is asked for. -/
def session (settings : Settings) (tasks : List String) :
    Except String (Session × List String) := do
  let manifest ← i.manifestContent s
  let tasks ← described (manifest.tasks tasks)
  let session ← described (manifest.session settings.toBuildSettings)
  return (session, tasks)

/-- The plans of segments, the first being at position `position`. -/
def segmentPlans (session : Session) (log : PlanningLog) (position : Nat) :
    List Segment → List SegmentPlans
  | [] => []
  | segment :: rest =>
    let (plans, log) := session.plans log segment
    let waves := (Schedule.ofMembers session.units (session.workspace.members segment)).waves
    { position, segment, waves, plans } :: segmentPlans session log (position + 1) rest

/-- Lists the plans of all units. -/
def listPlans (settings : Settings) (tasks : List String) (json : Bool) :
    Except String Outcome := do
  let (session, tasks) ← i.session s settings tasks
  let segments ← described (session.segments tasks)
  let plans := segmentPlans session {} 0 segments
  let output :=
    if json then Json.pretty (.list (plans.map SegmentPlans.toDatum)) ++ "\n"
    else String.join (plans.map Listing.plan)
  match (plans.flatMap (·.plans)).countP SegmentPlans.isFailure with
  | 0 => return { output }
  | n => return .failure ("Could not calculate the plan of " ++ toString n ++ " unit(s)") output

/-- The greatest number of units that a build can keep places for. -/
def maxPlaces : Nat :=
  0x1FFFFFFFFFFFFFFF

/-- Builds with simulated steps. -/
def build (settings : Settings) (tasks : List String) (json : Bool) : Except String Outcome := do
  let (session, tasks) ← i.session s settings tasks
  let _ ← described (session.segments tasks)
  if maxPlaces < session.settings.threads then return .abort
  let runner := Simulation.runner Simulation.failure?
  let report ← described (session.build runner (Resolver.ofGraph session.units) tasks)
  let summary := report.summary
  let output :=
    if json then Json.pretty (summary.toDatum true) ++ "\n" else Listing.summary summary
  return { output, exitCode := if summary.isSuccess then 0 else 1 }

/-- Shows the settings. The notation of the settings has no integers beyond 64 bits with a sign. -/
def showSettings (settings : Settings) (source : Option String) : Outcome :=
  let title := Listing.settingsTitle source
  if Datum.fitsInt64 settings.build.degreeOfConcurrency then
    { output := title ++ Listing.settings settings }
  else .failure "out-of-range value for u64 type" title

/-- What looks wrong with the manifest, if there is one. -/
def manifestWarnings : Except String (List String) := do
  let manifest ← i.manifestContent s
  let _ ← described manifest.registry
  let _ ← described manifest.workspace
  return manifest.warnings

/-- Tells what looks wrong with settings and manifest. -/
def validate (settings : Settings) : Outcome :=
  let title := Listing.lines ["", "Validating configuration...", ""]
  match s.manifestFile with
  | .missing =>
    let note := Listing.lines ["No build manifest at " ++ i.manifestPath s.directory]
    { output := title ++ note ++ Listing.warnings settings.warnings }
  | _ =>
    match i.manifestWarnings s with
    | .ok warnings => { output := title ++ Listing.warnings (settings.warnings ++ warnings) }
    | .error message => .failure message title

/-- Carries out an invocation. -/
def outcome : Outcome :=
  .ofExcept do
    let (settings, source) ← i.settings s
    match i.command with
    | .phases lifecycle points => i.listPhases s lifecycle points
    | .plan tasks json => i.listPlans s settings tasks json
    | .run tasks json => i.build s settings tasks json
    | .showSettings => return showSettings settings source
    | .validate => return i.validate s settings

end Invocation

end PhasedBuild.CommandLine
