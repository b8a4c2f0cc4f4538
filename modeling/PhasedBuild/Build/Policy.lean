/-!
# Failure policies

A failure policy says what a failed unit means for the units that have not been started.
-/

namespace PhasedBuild

/-- What a failed unit means for the rest of the build. -/
inductive FailurePolicy where
  /-- No further unit is started. -/
  | failFast
  /-- Only the units that depend on the failed one are given up. -/
  | failAtEnd
  /-- Failures are reported and have no effect. -/
  | failNever
deriving Repr, Inhabited, DecidableEq

namespace FailurePolicy

/-- All policies. -/
def all : List FailurePolicy :=
  [.failFast, .failAtEnd, .failNever]

/-- The name of a policy. -/
def name : FailurePolicy → String
  | .failFast => "fail-fast"
  | .failAtEnd => "fail-at-end"
  | .failNever => "fail-never"

/-- The policy of a name, which must be written exactly. -/
def ofName? (s : String) : Option FailurePolicy :=
  all.find? (·.name == s)

end FailurePolicy

end PhasedBuild
