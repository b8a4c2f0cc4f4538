import PhasedBuild.Build.Session
import PhasedBuild.Settings.Filter

/-!
# Settings

Settings come from a file, then from the environment, then from the command line; each layer
overrides what the one before says.

* `Settings.ofDatum?` reads the settings of a file.
* `Settings.withEnvironment` and `Settings.withOverrides` lay the other two layers over them.
* `Settings.warnings` tells what looks wrong.
-/

namespace PhasedBuild

/-- The settings of builds. -/
structure BuildSection where
  /-- How many units may be built side by side. -/
  degreeOfConcurrency : Nat := 1
  policy : FailurePolicy := .failFast
  offline : Bool := false
  projectPresent : Bool := true
deriving Repr, Inhabited, DecidableEq

/-- The settings of the log. -/
structure LoggingSection where
  /-- A filter. -/
  level : String := "warn"
  format : LogFormat := .text
deriving Repr, Inhabited, DecidableEq

/-- All settings. -/
structure Settings where
  build : BuildSection := {}
  logging : LoggingSection := {}
deriving Repr, Inhabited, DecidableEq

/-- A setting of the environment that makes no sense. -/
structure EnvironmentFault where
  name : String
  cause : SettingsFault
deriving Repr, Inhabited, DecidableEq

/-- The wording of a fault, without its cause. -/
def EnvironmentFault.message (f : EnvironmentFault) : String :=
  "Invalid " ++ f.name

/-- The settings of the command line. -/
structure Overrides where
  threads : Option Nat := none
  policy : Option FailurePolicy := none
  offline : Bool := false
  format : Option LogFormat := none
deriving Repr, Inhabited, DecidableEq

/-! ### Settings as data -/

namespace BuildSection

/-- Reads the settings of builds. -/
def ofDatum? (format : DataFormat) (d : Datum) : Option BuildSection := do
  let fields ← Fields.of? format
    ["degree_of_concurrency", "failure_policy", "offline", "project_present"] d
  let degreeOfConcurrency ← fields.withDefault "degree_of_concurrency" 1 Datum.count?
  let policy ← fields.withDefault "failure_policy" .failFast
    (Datum.word? format FailurePolicy.ofName?)
  let offline ← fields.withDefault "offline" false Datum.bool?
  let projectPresent ← fields.withDefault "project_present" true Datum.bool?
  return { degreeOfConcurrency, policy, offline, projectPresent }

/-- The fields of the settings of builds. -/
def toFields (b : BuildSection) : List (String × Datum) := [
  ("degree_of_concurrency", .nat b.degreeOfConcurrency),
  ("failure_policy", .text b.policy.name),
  ("offline", .bool b.offline),
  ("project_present", .bool b.projectPresent)]

end BuildSection

namespace LoggingSection

/-- Reads the settings of the log. -/
def ofDatum? (format : DataFormat) (d : Datum) : Option LoggingSection := do
  let fields ← Fields.of? format ["level", "format"] d
  let level ← fields.withDefault "level" "warn" Datum.text?
  let format ← fields.withDefault "format" .text (Datum.word? format LogFormat.ofName?)
  return { level, format }

/-- The fields of the settings of the log. -/
def toFields (l : LoggingSection) : List (String × Datum) := [
  ("level", .text l.level),
  ("format", .text l.format.name)]

end LoggingSection

namespace Settings

/-- Reads settings. -/
def ofDatum? (format : DataFormat) (d : Datum) : Option Settings := do
  let fields ← Fields.of? format ["build", "logging"] d
  let build ← fields.withDefault "build" {} (BuildSection.ofDatum? format)
  let logging ← fields.withDefault "logging" {} (LoggingSection.ofDatum? format)
  return { build, logging }

/-- The sections of the settings. -/
def sections (s : Settings) : List (String × List (String × Datum)) :=
  [("build", s.build.toFields), ("logging", s.logging.toFields)]

/-- Settings as data. -/
def toDatum (s : Settings) : Datum :=
  .table (s.sections.map fun (name, fields) => (name, .table fields))

/-! ### Layers -/

/-- The variable that sets the number of threads. -/
def threadsVariable : String := "REACTOR_THREADS"

/-- The variable that sets the failure policy. -/
def policyVariable : String := "REACTOR_FAILURE_POLICY"

/-- The variable that says whether the build is offline. -/
def offlineVariable : String := "REACTOR_OFFLINE"

/-- Takes the number of threads from the environment. -/
def withThreadsVariable (s : Settings) (cores : Nat) (lookup : String → Option String) :
    Except EnvironmentFault Settings :=
  match lookup threadsVariable with
  | none => .ok s
  | some spec =>
    match threads cores spec with
    | .ok n => .ok { s with build := { s.build with degreeOfConcurrency := n } }
    | .error cause => .error ⟨threadsVariable, cause⟩

/-- Takes the failure policy from the environment. -/
def withPolicyVariable (s : Settings) (lookup : String → Option String) :
    Except EnvironmentFault Settings :=
  match lookup policyVariable with
  | none => .ok s
  | some word =>
    match Settings.policy word with
    | .ok policy => .ok { s with build := { s.build with policy } }
    | .error cause => .error ⟨policyVariable, cause⟩

/-- Takes from the environment whether the build is offline. -/
def withOfflineVariable (s : Settings) (lookup : String → Option String) : Settings :=
  match lookup offlineVariable with
  | none => s
  | some word => { s with build := { s.build with offline := isOn word } }

/-- Lays the environment over settings. What has been read before a fault stays in effect. -/
def withEnvironment (s : Settings) (cores : Nat) (lookup : String → Option String) :
    Option EnvironmentFault × Settings :=
  match s.withThreadsVariable cores lookup with
  | .error fault => (some fault, s)
  | .ok s =>
    match s.withPolicyVariable lookup with
    | .error fault => (some fault, s)
    | .ok s => (none, s.withOfflineVariable lookup)

/-- Lays the settings of the command line over settings. -/
def withOverrides (s : Settings) (o : Overrides) : Settings where
  build := { s.build with
    degreeOfConcurrency := o.threads.getD s.build.degreeOfConcurrency
    policy := o.policy.getD s.build.policy
    offline := o.offline || s.build.offline }
  logging := { s.logging with format := o.format.getD s.logging.format }

/-! ### What settings mean -/

/-- The number of units that may be built side by side, which is at least one. -/
def threadCount (s : Settings) : Nat :=
  max 1 s.build.degreeOfConcurrency

/-- Whether units may be built side by side. -/
def isConcurrent (s : Settings) : Bool :=
  1 < s.threadCount

/-- The settings of a build. -/
def toBuildSettings (s : Settings) : BuildSettings where
  threads := s.threadCount
  policy := s.build.policy
  offline := s.build.offline
  projectPresent := s.build.projectPresent

/-- What looks wrong. -/
def warnings (s : Settings) : List String :=
  (if s.build.degreeOfConcurrency = 0 then
    ["degree_of_concurrency is 0; building one unit at a time instead"] else []) ++
  (if LogFilter.isValid s.logging.level then []
    else ["Invalid logging level '" ++ s.logging.level ++
      "': should be a filter directive such as 'info' or 'reactor=debug'"])

end Settings

end PhasedBuild
