import PhasedBuild.Build.Event
import PhasedBuild.Build.Schedule
import PhasedBuild.Build.Status
import PhasedBuild.Build.Summary

/-!
# How units come to an end

In every segment in which a unit takes part it is built, fails or is skipped. An `Ending` says
which, and with it what is noted of the unit in three places.

* `Ending.status` is for the schedule, `Ending.change` for the events and `Ending.result` for the
  summary.
* `BuildStatus.after` is what an ending means for the rest of the build.
-/

namespace PhasedBuild

/-- How a unit comes to an end in a segment. -/
inductive Ending where
  | succeeded (steps : Nat) (lastPhase : Option String)
  /-- It failed, after some steps or for want of a plan. -/
  | failed (error : BuildError) (steps : Nat) (lastPhase : Option String)
  /-- It was not attempted. -/
  | skipped (reason : SkipReason)
deriving Repr, Inhabited, DecidableEq

namespace Ending

/-- The status of the unit in its schedule. -/
def status : Ending → UnitStatus
  | .succeeded _ _ => .succeeded
  | .failed error _ _ => .failed error.message
  | .skipped reason => .skipped reason.message

/-- What is reported of the unit. -/
def change : Ending → UnitChange
  | .succeeded _ _ => .succeeded
  | .failed error _ _ => .failed error.message
  | .skipped reason => .skipped reason.message

/-- The outcome of the unit. -/
def outcome : Ending → UnitOutcome
  | .succeeded _ _ => .success
  | .failed _ _ _ => .failed
  | .skipped _ => .skipped

/-- The result of the unit in a segment. -/
def result (unit : String) (segment : Nat) : Ending → UnitResult
  | .succeeded steps lastPhase => .success unit segment steps 0 lastPhase
  | .failed error steps lastPhase => .failure unit segment error steps 0 lastPhase
  | .skipped reason => .skip unit segment reason.message

variable (unit : String) (segment : Nat) (ending : Ending)

@[simp] theorem isTerminal_status : ending.status.isTerminal = true := by
  cases ending <;> rfl

@[simp] theorem status_ne_pending : ending.status ≠ .pending := by
  cases ending <;> simp [status]

@[simp] theorem unit_result : (ending.result unit segment).unit = unit := by
  cases ending <;> rfl

@[simp] theorem segment_result : (ending.result unit segment).segment = segment := by
  cases ending <;> rfl

@[simp] theorem outcome_result : (ending.result unit segment).outcome = ending.outcome := by
  cases ending <;> rfl

end Ending

/-- What an ending of a unit means for the rest of the build. A failure of configuration stops the
build under every policy. -/
def BuildStatus.after (s : BuildStatus) (units : UnitGraph) (policy : FailurePolicy) (id : String) :
    Ending → BuildStatus
  | .failed error _ _ =>
    let s := if error.isConfiguration then s.halt else s
    match policy with
    | .failFast => s.halt.blacklist units id
    | .failAtEnd => s.blacklist units id
    | .failNever => s
  | .succeeded _ _ => s
  | .skipped _ => s

end PhasedBuild
