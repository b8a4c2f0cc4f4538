import PhasedBuild.Units

/-!
# The state of a unit

While a unit is built it collects what has been done to it. Forked work on the unit is done on a
copy, and the step that forks it sees that copy beside the real state.
-/

namespace PhasedBuild

/-- What a unit has collected. -/
structure UnitState where
  /-- The phase of the last step. -/
  lastPhase : Option String := none
  /-- The steps that ran to their end, in order. -/
  executed : List String := []
  /-- Named values, in the order of their names. -/
  properties : List (String × String) := []
  /-- The state to which the forked work of the running step has brought its copy. -/
  forked : Option UnitState := none
deriving Repr, Inhabited, BEq

namespace UnitState

/-- The state of a unit before anything has been done. -/
def ofUnit (unit : BuildUnit) : UnitState :=
  { properties := unit.properties }

/-- The copy on which forked work is done. -/
def copy (s : UnitState) : UnitState :=
  { s with forked := none }

/-- Notes the phase of a step, if it has one. -/
def enterPhase (s : UnitState) (phase : Option String) : UnitState :=
  { s with lastPhase := phase.or s.lastPhase }

end UnitState

end PhasedBuild
