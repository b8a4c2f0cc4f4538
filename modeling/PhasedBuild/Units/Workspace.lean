import PhasedBuild.Task
import PhasedBuild.Units.Graph

/-!
# The units of a build and its root

A build has at least one unit. One of them is the root, on which goals run that work on the whole
build; it is the first declared unit unless another one is named.
-/

namespace PhasedBuild

/-- The units of a build and the id of the root. -/
structure Workspace where
  units : UnitGraph
  root : String
  contains_root : units.contains root = true
deriving Repr

namespace Workspace

/-- The workspace of some units. -/
def ofGraph (units : UnitGraph) (root : Option String) : Except BuildError Workspace :=
  match hunits : units.units with
  | [] => .error Fault.noUnits
  | first :: _ =>
    match root with
    | none =>
      .ok {
        units
        root := first.id
        contains_root := by simp [UnitGraph.contains, UnitGraph.get?, hunits] }
    | some root =>
      if hroot : units.contains root then .ok { units, root, contains_root := hroot }
      else .error (Fault.unknownRoot root)

/-- Checks units and makes them a workspace. -/
def ofUnits (units : List BuildUnit) (root : Option String) : Except BuildError Workspace := do
  ofGraph (← UnitGraph.ofUnits units) root

/-- The units that take part in a segment, in build order: all of them, or the root alone if the
segment runs once for the whole build. -/
def members (w : Workspace) (segment : Segment) : List BuildUnit :=
  if segment.aggregating then (w.units.get? w.root).toList else w.units.sorted

end Workspace

end PhasedBuild
