import PhasedBuild.Build.Policy
import PhasedBuild.Error.Record

/-!
# The summary of a build

Every unit that takes part in a segment has one result there. The summary counts the results and
keeps them in the order in which they came in.
-/

namespace PhasedBuild

/-- How a unit came to an end in a segment. -/
inductive UnitOutcome where
  | success
  | failed
  | skipped
deriving Repr, Inhabited, DecidableEq

namespace UnitOutcome

/-- The name of an outcome. -/
def name : UnitOutcome → String
  | .success => "success"
  | .failed => "failed"
  | .skipped => "skipped"

/-- The outcome of a name. -/
def ofName? (s : String) : Option UnitOutcome :=
  [success, failed, skipped].find? (·.name == s)

/-- The outcome in a report. -/
def display : UnitOutcome → String
  | .success => "SUCCESS"
  | .failed => "FAILURE"
  | .skipped => "SKIPPED"

end UnitOutcome

/-- The result of a unit in a segment. -/
structure UnitResult where
  unit : String
  /-- The position of the segment. -/
  segment : Nat
  outcome : UnitOutcome
  /-- What went wrong, or why the unit was skipped. -/
  error : Option String := none
  errorKind : Option ErrorKind := none
  /-- The phase that the unit had come to. -/
  lastPhase : Option String := none
  /-- The number of steps that ran to their end. -/
  steps : Nat := 0
  milliseconds : Nat := 0
deriving Repr, Inhabited, DecidableEq

namespace UnitResult

/-- The result of a unit that was built. -/
def success (unit : String) (segment steps milliseconds : Nat) (lastPhase : Option String) :
    UnitResult :=
  { unit, segment, outcome := .success, lastPhase, steps, milliseconds }

/-- The result of a unit that failed. -/
def failure (unit : String) (segment : Nat) (error : BuildError) (steps milliseconds : Nat)
    (lastPhase : Option String) : UnitResult :=
  { unit, segment, outcome := .failed, error := some error.message, errorKind := some error.kind
    lastPhase, steps, milliseconds }

/-- The result of a unit that was not attempted. -/
def skip (unit : String) (segment : Nat) (reason : String) : UnitResult :=
  { unit, segment, outcome := .skipped, error := some reason }

end UnitResult

/-- The results of a build. -/
structure BuildSummary where
  total : Nat := 0
  succeeded : Nat := 0
  failed : Nat := 0
  skipped : Nat := 0
  milliseconds : Nat := 0
  /-- The results in the order in which they came in. -/
  results : List UnitResult := []
  policy : FailurePolicy := .failFast
deriving Repr, Inhabited, DecidableEq

namespace BuildSummary

/-- Adds a result and counts it. -/
def add (s : BuildSummary) (result : UnitResult) : BuildSummary :=
  let count (outcome : UnitOutcome) : Nat := if result.outcome = outcome then 1 else 0
  { s with
    total := s.total + 1
    succeeded := s.succeeded + count .success
    failed := s.failed + count .failed
    skipped := s.skipped + count .skipped
    results := s.results ++ [result] }

/-- Whether the build counts as successful. Under `failNever` it always does. -/
def isSuccess (s : BuildSummary) : Bool :=
  s.failed = 0 || s.policy = .failNever

/-- The results of the units that failed. -/
def failures (s : BuildSummary) : List UnitResult :=
  s.results.filter (·.outcome = .failed)

/-- The result of a unit in a segment. -/
def result? (s : BuildSummary) (unit : String) (segment : Nat) : Option UnitResult :=
  s.results.find? fun result => result.unit == unit && result.segment == segment

/-- The summary with its results ordered by segment and, within a segment, by unit. -/
def ordered (s : BuildSummary) : BuildSummary :=
  { s with results := s.results.mergeSort fun a b =>
      a.segment < b.segment || (a.segment == b.segment && a.unit ≤ b.unit) }

end BuildSummary

end PhasedBuild
