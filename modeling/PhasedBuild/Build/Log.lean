/-!
# Log records

A log record has a level, a message and fields, which are all texts.
-/

namespace PhasedBuild

/-- The importance of a log record. -/
inductive LogLevel where
  | debug
  | info
  | warn
  | error
deriving Repr, Inhabited, DecidableEq

/-- The name of a level. -/
def LogLevel.name : LogLevel → String
  | .debug => "DEBUG"
  | .info => "INFO"
  | .warn => "WARN"
  | .error => "ERROR"

/-- A log record. -/
structure LogRecord where
  level : LogLevel
  message : String
  fields : List (String × String) := []
deriving Repr, Inhabited, DecidableEq

end PhasedBuild
