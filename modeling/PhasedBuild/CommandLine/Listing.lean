import PhasedBuild.Build.Record
import PhasedBuild.Json.Printer
import PhasedBuild.Plan.Record
import PhasedBuild.Settings
import PhasedBuild.Toml.Printer

/-!
# What the commands print

* `Listing.phases`, `Listing.plan`, `Listing.summary` and `Listing.settings` are texts for a reader.
* `SegmentPlans.toDatum` is a plan for other programs.
-/

namespace PhasedBuild.CommandLine

/-- The plans of one segment. -/
structure SegmentPlans where
  /-- The position of the segment. -/
  position : Nat
  segment : Segment
  /-- The units, grouped by when they could be built at the earliest. -/
  waves : List (List String)
  plans : List (String × Except BuildError ExecutionPlan)
deriving Inhabited

namespace SegmentPlans

/-- Whether a unit has no plan. -/
def isFailure : String × Except BuildError ExecutionPlan → Bool
  | (_, .ok _) => false
  | (_, .error _) => true

/-- The plan of a unit as data. -/
def unitDatum : String × Except BuildError ExecutionPlan → Datum
  | (unit, .ok plan) => .table [("unit", .text unit), ("plan", plan.toDatum)]
  | (unit, .error e) => .table [("unit", .text unit), ("error", .text e.display)]

/-- The plans as data. -/
def toDatum (s : SegmentPlans) : Datum :=
  .table [
    ("index", .nat s.position),
    ("tasks", .text s.segment.display),
    ("aggregating", .bool s.segment.aggregating),
    ("waves", .list (s.waves.map .texts)),
    ("units", .list (s.plans.map unitDatum))]

end SegmentPlans

namespace Listing

/-- Lines, each with its line break. -/
def lines (texts : List String) : String :=
  String.join (texts.map (· ++ "\n"))

/-- A text with characters in front of it that bring it to a width. -/
def padLeft (width : Nat) (text : String) : String :=
  String.ofList (List.replicate (width - text.length) ' ') ++ text

/-- A text with dots behind it that bring it to a width. -/
def padDots (width : Nat) (text : String) : String :=
  text ++ String.ofList (List.replicate (width - text.length) '.')

/-- Texts with their numbers, which are counted from one. -/
def numbered (texts : List String) : List String :=
  texts.mapIdx fun i text => "  " ++ padLeft 3 (toString (i + 1)) ++ ". " ++ text

/-- The phases of a lifecycle, or all points at which something can be done. -/
def phases (id : String) (order : PhaseOrder) (points : Bool) : String :=
  lines (["[" ++ id ++ "]"] ++
    numbered (if points then order.points.map PhaseRef.display else order.phases) ++ [""])

/-! ### Plans -/

/-- A step in a list of steps, with the phase that it belongs to or else with its source. -/
def step (indent position : Nat) (s : Step) : String :=
  String.ofList (List.replicate indent ' ') ++ padLeft 2 (toString position) ++ ". " ++ s.display ++
    match s.phase with
    | some phase => " [" ++ phase ++ "]"
    | none => " (" ++ s.source.name ++ ")"

mutual

/-- An execution and the work that it forks. -/
def execution (indent position : Nat) : Execution → List String
  | ⟨s, .expanded units⟩ => step indent position s :: forkedUnits indent units
  | ⟨s, .pending⟩ => [step indent position s]
  | ⟨s, .notForking⟩ => [step indent position s]

/-- Forked work, unit by unit. -/
def forkedUnits (indent : Nat) : List (Forked Execution) → List String
  | [] => []
  | ⟨unit, inner⟩ :: rest =>
    (String.ofList (List.replicate (indent + 4) ' ') ++ "fork -> " ++ unit) ::
      (executions (indent + 8) 1 inner ++ forkedUnits indent rest)

/-- Executions, the first of them having the number `position`. -/
def executions (indent position : Nat) : List Execution → List String
  | [] => []
  | e :: rest => execution indent position e ++ executions indent (position + 1) rest

end

/-- The plan of a unit. -/
def unitPlan : String × Except BuildError ExecutionPlan → List String
  | (unit, .ok plan) =>
    ["", "  " ++ unit] ++
      if plan.executions.isEmpty then ["    (nothing to do)"] else executions 4 1 plan.executions
  | (unit, .error e) => ["", "  " ++ unit, "    error: " ++ e.display]

/-- The plans of a segment. -/
def plan (s : SegmentPlans) : String :=
  let waves := s.waves.map fun wave => "[" ++ String.intercalate ", " wave ++ "]"
  lines ([
    "Segment " ++ toString (s.position + 1) ++ ": " ++ s.segment.display,
    "  Waves: " ++ String.intercalate " -> " waves] ++ (s.plans.map unitPlan).flatten ++ [""])

/-! ### Summaries -/

/-- A time in seconds with two decimal places, rounded half to even. -/
def seconds (milliseconds : Nat) : String :=
  let hundredths := milliseconds / 10
  let rest := milliseconds % 10
  let rounded := if 5 < rest || (rest = 5 && hundredths % 2 = 1) then hundredths + 1 else hundredths
  let places := toString (rounded % 100)
  toString (rounded / 100) ++ "." ++ String.ofList (List.replicate (2 - places.length) '0') ++
    places ++ "s"

/-- The result of a unit; the segment is named only if there are several. -/
def result (severalSegments : Bool) (r : UnitResult) : List String :=
  let name := if severalSegments then r.unit ++ " #" ++ toString (r.segment + 1) else r.unit
  ("  " ++ padDots 40 (name ++ " ") ++ " " ++ r.outcome.display ++
    " [" ++ seconds r.milliseconds ++ "]") ::
    (r.error.map fun error => "      " ++ error).toList

/-- The results of a build. -/
def summary (s : BuildSummary) : String :=
  let severalSegments := s.results.any (0 < ·.segment)
  lines (["", "Reactor Summary (" ++ s.policy.name ++ "):", ""] ++
    (s.results.map (result severalSegments)).flatten ++
    ["", if s.isSuccess then "BUILD SUCCESS" else "BUILD FAILURE",
      "  " ++ toString s.succeeded ++ " succeeded, " ++ toString s.failed ++ " failed, " ++
        toString s.skipped ++ " skipped in " ++ seconds s.milliseconds])

/-! ### Settings -/

/-- What stands before the settings: where they come from. -/
def settingsTitle (source : Option String) : String :=
  lines ["", "Reactor Configuration", "=====================", "",
    match source with
    | some path => "Config file: " ++ path
    | none => "No reactor.toml found, using defaults",
    "", "Effective values (with env/CLI overrides):", ""]

/-- The settings. -/
def settings (s : Settings) : String :=
  Toml.sections s.sections ++ "\n"

/-- What looks wrong with settings and manifest. -/
def warnings : List String → String
  | [] => lines ["Configuration is valid.", ""]
  | warnings => lines (["Configuration warnings:"] ++ warnings.map ("  - " ++ ·) ++ [""])

end Listing

end PhasedBuild.CommandLine
