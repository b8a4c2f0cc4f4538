import PhasedBuild.Units.Graph

/-!
# The schedule of a segment

A schedule keeps the status of every unit that takes part in a segment.

* `Schedule.ready` are the units that can be started: those that wait and whose direct prerequisites
  have all come to an end.
* `Schedule.waves` groups the units into those that could be built side by side.
-/

namespace PhasedBuild

/-- How far a unit has come in a segment. -/
inductive UnitStatus where
  | pending
  | running
  | succeeded
  | failed (error : String)
  /-- It was not attempted. -/
  | skipped (reason : String)
deriving Repr, Inhabited, DecidableEq

namespace UnitStatus

/-- Whether the unit has come to an end. -/
def isTerminal : UnitStatus → Bool
  | .pending => false
  | .running => false
  | .succeeded => true
  | .failed _ => true
  | .skipped _ => true

/-- A unit that is running does not wait. -/
theorem running_ne_pending : running ≠ pending :=
  nofun

/-- Whether the unit has been built. -/
def isSuccess (s : UnitStatus) : Bool :=
  s == .succeeded

/-- Whether the unit is being built. -/
def isRunning (s : UnitStatus) : Bool :=
  s == .running

end UnitStatus

/-- A unit of a segment. -/
structure ScheduledUnit where
  id : String
  status : UnitStatus := .pending
  /-- The direct prerequisites that take part in the segment. -/
  prerequisites : List String := []
deriving Repr, Inhabited, DecidableEq

/-- The units of a segment in build order. -/
structure Schedule where
  units : List ScheduledUnit := []
deriving Repr, Inhabited, DecidableEq

namespace Schedule

/-- The schedule of some units of a build, which are given in build order. -/
def ofMembers (graph : UnitGraph) (members : List BuildUnit) : Schedule :=
  let ids := members.map (·.id)
  ⟨members.map fun unit =>
    { id := unit.id, prerequisites := (graph.prerequisites unit.id).filter ids.contains }⟩

/-- The number of units. -/
def size (s : Schedule) : Nat :=
  s.units.length

/-- The unit of an id. -/
def get? (s : Schedule) (id : String) : Option ScheduledUnit :=
  s.units.find? (·.id == id)

/-- Gives a unit another status. -/
def mark (s : Schedule) (id : String) (status : UnitStatus) : Schedule :=
  ⟨s.units.map fun unit => if unit.id = id then { unit with status } else unit⟩

/-- Whether a unit has come to an end or takes no part. -/
def isFinished (s : Schedule) (id : String) : Bool :=
  (s.get? id).all (·.status.isTerminal)

/-- The units that can be started now, in build order. -/
def ready (s : Schedule) : List String :=
  let isReady (unit : ScheduledUnit) : Bool :=
    unit.status == .pending && unit.prerequisites.all s.isFinished
  (s.units.filter isReady).map (·.id)

/-- Whether every unit has come to an end. -/
def isComplete (s : Schedule) : Bool :=
  s.units.all (·.status.isTerminal)

/-- The number of units that are being built. -/
def runningCount (s : Schedule) : Nat :=
  s.units.countP (·.status.isRunning)

/-! ### Waves -/

/-- Whether all prerequisites of a unit are among the placed ones. -/
def isUnblocked (placed : List String) (unit : ScheduledUnit) : Bool :=
  unit.prerequisites.all placed.contains

/-- The units of which none is in a list of ids. -/
def without (ids : List String) (units : List ScheduledUnit) : List ScheduledUnit :=
  units.filter fun unit => !ids.contains unit.id

/-- Leaving out a unit leaves fewer. -/
theorem length_without_lt {ids : List String} {units : List ScheduledUnit} {unit : ScheduledUnit}
    (hunit : unit ∈ units) (hid : unit.id ∈ ids) : (without ids units).length < units.length :=
  List.length_filter_lt_length_iff_exists.2 ⟨unit, hunit, by simp [hid]⟩

/-- Takes waves from units that are not placed yet. -/
def peel (placed : List String) (rest : List ScheduledUnit) : List (List String) :=
  match _h : rest.filter (isUnblocked placed) with
  | [] => []
  | unit :: others =>
    let wave := unit.id :: others.map (·.id)
    wave :: peel (placed ++ wave) (without wave rest)
termination_by rest.length
decreasing_by
  have hmem : unit ∈ rest.filter (isUnblocked placed) := _h ▸ List.mem_cons_self
  exact length_without_lt (List.mem_filter.1 hmem).1 List.mem_cons_self

/-- Groups of units that could be built side by side if each group waited for the one before. -/
def waves (s : Schedule) : List (List String) :=
  peel [] s.units

end Schedule

end PhasedBuild
