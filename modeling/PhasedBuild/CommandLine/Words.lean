import PhasedBuild.Settings

/-!
# The words of the command line

A command line consists of commands, of switches, which are there or not, and of settings, each of
which comes with a value.

* `Level` says which words may follow a command.
* `Given` is what has been given with a command; `Given.put` and `Given.set` add to it.
* `Given.inside` joins what has been given with a command and with the one around it.
-/

namespace PhasedBuild.CommandLine

/-- A word that is there or not. -/
inductive Switch where
  | failFast
  | failAtEnd
  | failNever
  | offline
  /-- It may be repeated. -/
  | verbose
  | points
  | json
deriving Repr, Inhabited, DecidableEq

/-- A word that comes with a value. -/
inductive Setting where
  | manifest
  | config
  | threads
  | logFormat
  | lifecycle
deriving Repr, Inhabited, DecidableEq

/-- The name of a switch. -/
def Switch.name : Switch → String
  | .failFast => "fail-fast"
  | .failAtEnd => "fail-at-end"
  | .failNever => "fail-never"
  | .offline => "offline"
  | .verbose => "verbose"
  | .points => "points"
  | .json => "json"

/-- The letter of a switch. -/
def Switch.letter? : Switch → Option Char
  | .offline => some 'o'
  | .verbose => some 'v'
  | _ => none

/-- The name of a setting. -/
def Setting.name : Setting → String
  | .manifest => "manifest"
  | .config => "config"
  | .threads => "threads"
  | .logFormat => "log-format"
  | .lifecycle => "lifecycle"

/-- The letter of a setting. -/
def Setting.letter? : Setting → Option Char
  | .manifest => some 'f'
  | .threads => some 'T'
  | .lifecycle => some 'l'
  | _ => none

/-! ### Commands -/

/-- The command that words belong to. -/
inductive Level where
  /-- No command has been named yet. -/
  | top
  | phases
  | plan
  | run
  | config
  | configShow
  | configValidate
deriving Repr, Inhabited, DecidableEq

namespace Level

/-- The switches that may follow. -/
def switches (level : Level) : List Switch :=
  [.failFast, .failAtEnd, .failNever, .offline, .verbose] ++
    match level with
    | .phases => [.points]
    | .plan => [.json]
    | .run => [.json]
    | _ => []

/-- The settings that may follow. -/
def settings (level : Level) : List Setting :=
  [.manifest, .config, .threads, .logFormat] ++
    match level with
    | .phases => [.lifecycle]
    | _ => []

/-- Whether tasks may follow. -/
def takesTasks : Level → Bool
  | .plan => true
  | .run => true
  | _ => false

/-- The command that a word names. -/
def command? (level : Level) (word : String) : Option Level :=
  match level with
  | .top => [("phases", phases), ("plan", plan), ("run", run), ("config", config)].lookup word
  | .config => [("show", configShow), ("validate", configValidate)].lookup word
  | _ => none

end Level

/-! ### What has been given -/

/-- What is wrong with a command line. -/
inductive UsageFault where
  | unknownWord (word : String)
  | missingCommand
  | missingValue (setting : Setting)
  | invalidValue (setting : Setting) (text : String)
  /-- A value was given to a switch. -/
  | unwantedValue (switch : Switch)
  | repeatedSwitch (switch : Switch)
  | repeatedSetting (setting : Setting)
  | conflict (first second : Switch)
deriving Repr, Inhabited, DecidableEq

/-- The wording of a fault. -/
def UsageFault.message : UsageFault → String
  | .unknownWord word => "unexpected argument '" ++ word ++ "'"
  | .missingCommand => "a command is required"
  | .missingValue setting => "a value is required for '--" ++ setting.name ++ "'"
  | .invalidValue setting text => "invalid value '" ++ text ++ "' for '--" ++ setting.name ++ "'"
  | .unwantedValue switch => "unexpected value for '--" ++ switch.name ++ "'"
  | .repeatedSwitch switch => "'--" ++ switch.name ++ "' cannot be used multiple times"
  | .repeatedSetting setting => "'--" ++ setting.name ++ "' cannot be used multiple times"
  | .conflict first second =>
    "'--" ++ first.name ++ "' cannot be used with '--" ++ second.name ++ "'"

/-- What has been given with a command. -/
structure Given where
  switches : List Switch := []
  manifest : Option String := none
  config : Option String := none
  threads : Option Nat := none
  format : Option LogFormat := none
  lifecycle : Option String := none
  tasks : List String := []
deriving Repr, Inhabited, DecidableEq

namespace Given

/-- Adds a switch. -/
def put (g : Given) (switch : Switch) : Except UsageFault Given :=
  if switch != .verbose && g.switches.contains switch then .error (.repeatedSwitch switch)
  else .ok { g with switches := g.switches ++ [switch] }

/-- Whether a setting has a value. -/
def hasValue (g : Given) : Setting → Bool
  | .manifest => g.manifest.isSome
  | .config => g.config.isSome
  | .threads => g.threads.isSome
  | .logFormat => g.format.isSome
  | .lifecycle => g.lifecycle.isSome

/-- The settings with one more value, if it makes sense. The name of a file is not empty. -/
def withValue? (cores : Nat) (g : Given) (setting : Setting) (text : String) : Option Given :=
  match setting with
  | .manifest => if text.isEmpty then none else some { g with manifest := some text }
  | .config => if text.isEmpty then none else some { g with config := some text }
  | .threads => (Settings.threads cores text).toOption.map fun n => { g with threads := some n }
  | .logFormat => (Settings.format text).toOption.map fun f => { g with format := some f }
  | .lifecycle => some { g with lifecycle := some text }

/-- Adds the value of a setting. -/
def set (cores : Nat) (g : Given) (setting : Setting) (text : String) : Except UsageFault Given :=
  match g.withValue? cores setting text with
  | none => .error (.invalidValue setting text)
  | some given => if g.hasValue setting then .error (.repeatedSetting setting) else .ok given

/-- The pairs of switches that exclude each other. -/
def exclusions : List (Switch × Switch) :=
  [(.failFast, .failAtEnd), (.failFast, .failNever), (.failAtEnd, .failNever)]

/-- What has been given, unless two switches exclude each other. -/
def consistent (g : Given) : Except UsageFault Given :=
  match exclusions.find? fun (a, b) => g.switches.contains a && g.switches.contains b with
  | some (a, b) => .error (.conflict a b)
  | none => .ok g

/-- What has been given with a command and with the one around it. A value of the inner command is
preferred; the tasks are those of the inner one. -/
def inside (inner outer : Given) : Given where
  switches := outer.switches ++ inner.switches
  manifest := inner.manifest.or outer.manifest
  config := inner.config.or outer.config
  threads := inner.threads.or outer.threads
  format := inner.format.or outer.format
  lifecycle := inner.lifecycle.or outer.lifecycle
  tasks := inner.tasks

/-- Whether a switch has been given. -/
def has (g : Given) (switch : Switch) : Bool :=
  g.switches.contains switch

/-- The failure policy that has been given. -/
def policy (g : Given) : Option FailurePolicy :=
  if g.has .failFast then some .failFast
  else if g.has .failAtEnd then some .failAtEnd
  else if g.has .failNever then some .failNever
  else none

/-- The settings of the build that have been given. -/
def overrides (g : Given) : Overrides where
  threads := g.threads
  policy := g.policy
  offline := g.has .offline
  format := g.format

end Given

end PhasedBuild.CommandLine
