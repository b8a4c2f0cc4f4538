import PhasedBuild.Build.Log
import PhasedBuild.Text.Quoted

/-!
# Build events

A build reports its progress by events: about the whole build, about a unit in a segment, about a
step, about the forked work of a step and about that work on one unit.

* `Event.kind` names what happened.
* `Event.isInner` tells the events of steps and forked work from the others.
* `Event.logRecord` is how an event is logged.
-/

namespace PhasedBuild

/-- What can happen to a unit in a segment. -/
inductive UnitChange where
  | started
  | succeeded
  | failed (error : String)
  /-- It was not attempted. -/
  | skipped (reason : String)
deriving Repr, Inhabited, DecidableEq

/-- What can happen to a step. -/
inductive StepChange where
  | started (phase : Option String)
  | succeeded
  | failed (error : String)
  /-- The settings of the build do not allow it. -/
  | skipped (reason : String)
deriving Repr, Inhabited, DecidableEq

/-- What can happen to forked work. -/
inductive ForkChange where
  | started
  | succeeded
  | failed (error : String)
deriving Repr, Inhabited, DecidableEq

/-- Something that happened in a build. -/
inductive Event where
  | sessionStarted (units segments : Nat)
  | sessionEnded (success : Bool)
  | ofUnit (unit : String) (segment : Nat) (change : UnitChange)
  | ofStep (unit step : String) (change : StepChange)
  /-- The forked work of a step. -/
  | ofFork (unit step : String) (change : ForkChange)
  /-- The forked work of a step on one unit. -/
  | ofForkedUnit (unit step forked : String) (change : ForkChange)
deriving Repr, Inhabited, DecidableEq

/-- The name of a change. -/
def UnitChange.name : UnitChange → String
  | .started => "started"
  | .succeeded => "succeeded"
  | .failed _ => "failed"
  | .skipped _ => "skipped"

/-- The name of a change. -/
def StepChange.name : StepChange → String
  | .started _ => "started"
  | .succeeded => "succeeded"
  | .failed _ => "failed"
  | .skipped _ => "skipped"

/-- The name of a change. -/
def ForkChange.name : ForkChange → String
  | .started => "started"
  | .succeeded => "succeeded"
  | .failed _ => "failed"

namespace Event

/-- What happened, without the details. -/
def kind : Event → String
  | .sessionStarted _ _ => "session_started"
  | .sessionEnded _ => "session_ended"
  | .ofUnit _ _ change => "unit_" ++ change.name
  | .ofStep _ _ change => "step_" ++ change.name
  | .ofFork _ _ change => "fork_" ++ change.name
  | .ofForkedUnit _ _ _ change => "forked_unit_" ++ change.name

/-- The unit that an event is about. -/
def unit? : Event → Option String
  | .sessionStarted _ _ => none
  | .sessionEnded _ => none
  | .ofUnit unit _ _ => some unit
  | .ofStep unit _ _ => some unit
  | .ofFork unit _ _ => some unit
  | .ofForkedUnit unit _ _ _ => some unit

/-- Whether an event tells of the inside of a unit's build: of a step or of its forked work. -/
def isInner : Event → Bool
  | .sessionStarted _ _ => false
  | .sessionEnded _ => false
  | .ofUnit _ _ _ => false
  | .ofStep _ _ _ => true
  | .ofFork _ _ _ => true
  | .ofForkedUnit _ _ _ _ => true

/-- An optional text as it is logged. -/
def optionText : Option String → String
  | none => "None"
  | some s => "Some(" ++ Text.quoted s ++ ")"

/-- The record of progress that is of little interest. -/
def progressRecord (e : Event) : LogRecord :=
  ⟨.debug, "Fork progress", [("event", e.kind)]⟩

/-- The log record of an event. -/
def logRecord (e : Event) : LogRecord :=
  match e with
  | .sessionStarted units segments =>
    ⟨.info, "Build started", [("units", toString units), ("segments", toString segments)]⟩
  | .sessionEnded success =>
    ⟨.info, "Build finished", [("success", if success then "true" else "false")]⟩
  | .ofUnit unit segment .started =>
    ⟨.info, "Building unit", [("unit", unit), ("segment", toString segment)]⟩
  | .ofUnit unit _ .succeeded => ⟨.debug, "Unit succeeded", [("unit", unit)]⟩
  | .ofUnit unit _ (.failed error) => ⟨.error, "Unit failed", [("unit", unit), ("error", error)]⟩
  | .ofUnit unit _ (.skipped reason) =>
    ⟨.warn, "Unit skipped", [("unit", unit), ("reason", reason)]⟩
  | .ofStep unit step (.started phase) =>
    ⟨.info, "Running step", [("unit", unit), ("step", step), ("phase", optionText phase)]⟩
  | .ofStep unit step .succeeded => ⟨.debug, "Step succeeded", [("unit", unit), ("step", step)]⟩
  | .ofStep unit step (.failed error) =>
    ⟨.error, "Step failed", [("unit", unit), ("step", step), ("error", error)]⟩
  | .ofStep unit step (.skipped reason) =>
    ⟨.warn, "Step skipped", [("unit", unit), ("step", step), ("reason", reason)]⟩
  | .ofFork unit step (.failed error) =>
    ⟨.error, "Fork failed", [("unit", unit), ("step", step), ("error", error)]⟩
  | .ofForkedUnit _ step forked (.failed error) =>
    ⟨.error, "Forked unit failed", [("unit", forked), ("step", step), ("error", error)]⟩
  | .ofFork _ _ .started => e.progressRecord
  | .ofFork _ _ .succeeded => e.progressRecord
  | .ofForkedUnit _ _ _ .started => e.progressRecord
  | .ofForkedUnit _ _ _ .succeeded => e.progressRecord

end Event

end PhasedBuild
