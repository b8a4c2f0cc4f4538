import PhasedBuild.Datum
import PhasedBuild.Error

/-!
# The record of an error

`BuildError` is a fault together with the place where it happened and the chain of errors that led
to it. `BuildError.display` tells it in one line, `BuildError.toDatum` as data. -/

namespace PhasedBuild

/-- Where an error happened. -/
structure ErrorContext where
  unit : Option String := none
  step : Option String := none
  phase : Option String := none
deriving Repr, Inhabited, DecidableEq

namespace ErrorContext

/-- Whether nothing is known about the place. -/
def isEmpty (c : ErrorContext) : Bool :=
  c.unit.isNone && c.step.isNone && c.phase.isNone

/-- The known parts between brackets, behind a blank; nothing if none is known. -/
def display (c : ErrorContext) : String :=
  let parts := (c.unit.map ("unit " ++ ·)).toList ++ (c.step.map ("step " ++ ·)).toList ++
    (c.phase.map ("phase " ++ ·)).toList
  if parts.isEmpty then "" else " [" ++ String.intercalate ", " parts ++ "]"

end ErrorContext

/-- One error of the chain behind another one. -/
inductive Cause where
  | build (fault : Fault) (context : ErrorContext)
  | text (message : String)
deriving Repr, Inhabited, DecidableEq

/-- The display of a fault at a place. -/
def faultDisplay (fault : Fault) (context : ErrorContext) : String :=
  fault.kind.name ++ " error" ++ context.display ++ ": " ++ fault.message

/-- The display of an error of a chain. -/
def Cause.display : Cause → String
  | .build fault context => faultDisplay fault context
  | .text message => message

/-- An error of a build. The causes are the chain behind it, the nearest one first. -/
structure BuildError where
  fault : Fault
  context : ErrorContext := {}
  causes : List Cause := []
deriving Repr, Inhabited, DecidableEq

namespace BuildError

instance : Coe Fault BuildError := ⟨fun fault => { fault }⟩

/-- The kind of an error is that of its fault. -/
def kind (e : BuildError) : ErrorKind := e.fault.kind

/-- The message of an error is that of its fault. -/
def message (e : BuildError) : String := e.fault.message

/-- The kind, the place and the message. -/
def display (e : BuildError) : String := faultDisplay e.fault e.context

/-- Whether the error is one of configuration. -/
def isConfiguration (e : BuildError) : Bool := e.kind == .configuration

/-- Names the unit of an error unless one is named already. -/
def withUnit (e : BuildError) (unit : String) : BuildError :=
  { e with context := { e.context with unit := e.context.unit.or (some unit) } }

/-- Names the step of an error unless one is named already. -/
def withStep (e : BuildError) (step : String) : BuildError :=
  { e with context := { e.context with step := e.context.step.or (some step) } }

/-- Names the phase of an error unless one is named already. -/
def withPhase (e : BuildError) (phase : String) : BuildError :=
  { e with context := { e.context with phase := e.context.phase.or (some phase) } }

/-- Puts another error behind this one, in the place of what was there. -/
def withSource (e source : BuildError) : BuildError :=
  { e with causes := .build source.fault source.context :: source.causes }

/-- Puts a chain of reasons behind an error. -/
def withReasons (e : BuildError) (reasons : List String) : BuildError :=
  { e with causes := reasons.map .text }

end BuildError

/-- An error as data: its kind, its wording, its place, all of that in one text, and its causes. -/
def BuildError.toDatum (e : BuildError) : Datum :=
  .table [
    ("error", .text e.kind.name),
    ("message", .text e.message),
    ("context", .record [
      ("unit", e.context.unit.map .text),
      ("step", e.context.step.map .text),
      ("phase", e.context.phase.map .text)]),
    ("display", .text e.display),
    ("causes", .texts (e.causes.map Cause.display))]

end PhasedBuild
