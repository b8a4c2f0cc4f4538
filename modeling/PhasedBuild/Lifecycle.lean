import PhasedBuild.Phase

/-!
# Lifecycles

A lifecycle is a named list of phases together with aliases, which are older names for its execution
points.
-/

namespace PhasedBuild

/-- An older name for an execution point. -/
structure Alias where
  legacy : String
  target : String
deriving Repr, Inhabited, DecidableEq

/-- A named list of phases. -/
structure Lifecycle where
  id : String
  phases : List Phase
  aliases : List Alias := []
deriving Repr, Inhabited, BEq

namespace Lifecycle

/-- All phases, parents first. -/
def allPhases (l : Lifecycle) : List Phase :=
  Phase.walkAll l.phases

/-- The names of all phases, parents first. -/
def phaseNames (l : Lifecycle) : List String :=
  Phase.names l.phases

/-- All names that the lifecycle claims: those of its phases and those of its aliases. -/
def claimedNames (l : Lifecycle) : List String :=
  l.phaseNames ++ l.aliases.map (·.legacy)

/-- The first phase of a name. -/
def find? (l : Lifecycle) (name : String) : Option Phase :=
  l.allPhases.find? (·.name == name)

/-- Whether a phase has the name. -/
def contains (l : Lifecycle) (name : String) : Bool :=
  (l.find? name).isSome

/-- The phase names that are declared more than once, in the order of their first repetition. -/
def duplicatePhases (l : Lifecycle) : List String :=
  Phase.repeated [] l.phaseNames

end Lifecycle

end PhasedBuild
