import PhasedBuild.Units.Graph

/-!
# Which units may still be started

A failure may stop the whole build, or only the units that depend on the failed one.

* `BuildStatus.skipReason?` says why a unit must not be started.
-/

namespace PhasedBuild

/-- Why a unit is not started. -/
inductive SkipReason where
  /-- The build has been stopped. -/
  | halted
  /-- The unit or one that it depends on has failed. -/
  | blacklisted
deriving Repr, Inhabited, DecidableEq

/-- The wording of a reason. -/
def SkipReason.message : SkipReason → String
  | .halted => "build halted after an earlier failure"
  | .blacklisted => "an upstream unit failed"

/-- What failures have done to the rest of the build. -/
structure BuildStatus where
  halted : Bool := false
  /-- The ids of the units that are given up, in order. -/
  blacklisted : List String := []
deriving Repr, Inhabited, DecidableEq

namespace BuildStatus

/-- Puts an id in its place among ordered ids. -/
def insertId (id : String) : List String → List String
  | [] => [id]
  | other :: rest =>
    if id = other then other :: rest
    else if id < other then id :: other :: rest
    else other :: insertId id rest

/-- Stops the build. -/
def halt (s : BuildStatus) : BuildStatus :=
  { s with halted := true }

/-- Gives up a unit and all units that depend on it. -/
def blacklist (s : BuildStatus) (units : UnitGraph) (id : String) : BuildStatus :=
  { s with blacklisted :=
      (id :: units.downstream id).foldl (fun ids id => insertId id ids) s.blacklisted }

/-- Whether a unit is given up. -/
def isBlacklisted (s : BuildStatus) (id : String) : Bool :=
  s.blacklisted.contains id

/-- Why a unit must not be started, if there is a reason. -/
def skipReason? (s : BuildStatus) (id : String) : Option SkipReason :=
  if s.halted then some .halted
  else if s.isBlacklisted id then some .blacklisted
  else none

@[simp] theorem mem_insertId {id other : String} {ids : List String} :
    other ∈ insertId id ids ↔ other = id ∨ other ∈ ids := by
  induction ids with
  | nil => simp [insertId]
  | cons x rest ih =>
    unfold insertId
    split
    · next h => subst h; simp
    · split
      · simp
      · simp [ih, or_left_comm]

end BuildStatus

end PhasedBuild
