import PhasedBuild.Plan.Execution
import PhasedBuild.Keyed
import PhasedBuild.Units.Graph

/-!
# Stages

A stage is a segment that is about to be built: its position in the build, the units that take part
in it, and their plans.
-/

namespace PhasedBuild

/-- The plans of units, or the errors that stand in their places. -/
abbrev UnitPlans := List (String × Except BuildError ExecutionPlan)

/-- A segment that is about to be built. -/
structure Stage where
  position : Nat := 0
  /-- The units that take part, in build order. -/
  members : List BuildUnit := []
  plans : UnitPlans := []

/-- The plan of a unit, or the error that stands in its place. -/
def UnitPlans.get (plans : UnitPlans) (id : String) : Except BuildError ExecutionPlan :=
  (Keyed.find? id plans).getD (.error (Fault.unplannedUnit id))

namespace Stage

/-- The ids of the units that take part. -/
def ids (s : Stage) : List String :=
  s.members.map (·.id)

/-- The units that take part, each with the position of the segment. -/
def pairs (s : Stage) : List (String × Nat) :=
  s.ids.map (·, s.position)

end Stage

end PhasedBuild
