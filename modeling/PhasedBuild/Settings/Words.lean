import PhasedBuild.Build.Policy
import PhasedBuild.Datum.Reading
import PhasedBuild.Decimal.Reading
import PhasedBuild.Text.Characters

/-!
# Settings written as words

Settings that come from the environment or from the command line are texts.

* `Settings.threads` reads a number of threads, or a multiple of the number of processors.
* `Settings.policy` and `Settings.format` read words in any case.
-/

namespace PhasedBuild

/-- The format of the log. -/
inductive LogFormat where
  | text
  | json
deriving Repr, Inhabited, DecidableEq

namespace LogFormat

/-- The name of a format. -/
def name : LogFormat → String
  | .text => "text"
  | .json => "json"

/-- The format of a name, which must be written exactly. -/
def ofName? (s : String) : Option LogFormat :=
  [text, json].find? (·.name == s)

end LogFormat

/-- What is wrong with a setting. -/
inductive SettingsFault where
  | invalidThreads (spec : String)
  /-- A number of threads that comes to none at all. -/
  | noThreads (spec : String)
  | invalidPolicy (word : String)
  | invalidFormat (word : String)
deriving Repr, Inhabited, DecidableEq

/-- The wording of a fault. -/
def SettingsFault.message : SettingsFault → String
  | .invalidThreads spec => "Invalid thread count '" ++ spec ++ "'"
  | .noThreads spec => "Invalid thread count '" ++ spec ++ "': must be at least 1"
  | .invalidPolicy word =>
    "Invalid failure policy '" ++ word ++ "'. Valid values: fail-fast, fail-at-end, fail-never"
  | .invalidFormat word => "Invalid log format '" ++ word ++ "'. Valid values: text, json"

namespace Settings

/-- The number that a text writes with digits and an optional plus sign, if it is a count. -/
def count? (spec : String) : Option Nat :=
  let digits := match spec.toList with
    | '+' :: digits => digits
    | digits => digits
  (Decimal.nat? digits).filter (· ≤ Datum.maxCount)

/-- The greatest whole number not above a multiple of the number of processors, within the range of
counts. -/
def scaled (cores : Nat) (factor : Decimal.Reading) : Nat :=
  (factor.toFloat * Float.ofNat cores).floor.toUInt64.toNat

/-- The number of threads that a text without blanks around it asks for, before it is checked. -/
def requested? (cores : Nat) (spec : String) : Option Nat :=
  match spec.toList.getLast? with
  | some 'C' => (Decimal.Reading.parse? (String.ofList spec.toList.dropLast)).map (scaled cores)
  | some 'c' => (Decimal.Reading.parse? (String.ofList spec.toList.dropLast)).map (scaled cores)
  | _ => count? spec

/-- A number of threads: a count, or a multiple of the number of processors that ends in `C`. It
must be at least one. -/
def threads (cores : Nat) (text : String) : Except SettingsFault Nat :=
  let spec := Text.trim text
  match requested? cores spec with
  | none => .error (.invalidThreads spec)
  | some 0 => .error (.noThreads spec)
  | some n => .ok n

/-- A failure policy. -/
def policy (word : String) : Except SettingsFault FailurePolicy :=
  match FailurePolicy.all.find? (Text.spells ·.name word) with
  | some policy => .ok policy
  | none => .error (.invalidPolicy word)

/-- A format of the log. -/
def format (word : String) : Except SettingsFault LogFormat :=
  match [LogFormat.text, LogFormat.json].find? (Text.spells ·.name word) with
  | some format => .ok format
  | none => .error (.invalidFormat word)

/-- Whether a word switches a setting on: all do but a few. -/
def isOn (word : String) : Bool :=
  not (["", "0", "false"].any (Text.spells · word))

end Settings

end PhasedBuild
