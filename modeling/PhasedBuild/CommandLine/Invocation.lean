import PhasedBuild.CommandLine.Words
import PhasedBuild.Text.Split

/-!
# Reading a command line

* `Invocation.ofWords` reads the words of a command line.

A word that begins with two hyphens names a switch or a setting, one that begins with a single
hyphen lists letters of them. The value of a setting follows as the next word, or in the same word
behind an equals sign; behind a letter that sign may be left out. All words behind a lone pair of
hyphens are tasks.
-/

namespace PhasedBuild.CommandLine

/-- What is to be done. -/
inductive Command where
  | phases (lifecycle : Option String) (points : Bool)
  | plan (tasks : List String) (json : Bool)
  | run (tasks : List String) (json : Bool)
  | showSettings
  | validate
deriving Repr, Inhabited, DecidableEq

/-- A command line that has been read. -/
structure Invocation where
  command : Command
  manifest : Option String := none
  config : Option String := none
  overrides : Overrides := {}
deriving Repr, Inhabited, DecidableEq

/-- How far a command line has been read. -/
structure Progress where
  level : Level := .top
  /-- What has been given with the command. -/
  given : Given := {}
  /-- What has been given before the command. -/
  outer : Given := {}
  /-- The setting whose value comes next. -/
  pending : Option Setting := none
  /-- Whether only tasks can follow. -/
  onlyTasks : Bool := false
deriving Repr, Inhabited, DecidableEq

namespace Progress

/-- Adds a switch. -/
def put (p : Progress) (switch : Switch) : Except UsageFault Progress := do
  return { p with given := ← p.given.put switch }

/-- Adds the value of a setting. -/
def set (cores : Nat) (p : Progress) (setting : Setting) (text : String) :
    Except UsageFault Progress := do
  return { p with given := ← p.given.set cores setting text, pending := none }

/-- Reads a name, and the value behind its equals sign if there is one. -/
def readName (cores : Nat) (p : Progress) (name : String) (value : Option String) :
    Except UsageFault Progress :=
  match p.level.switches.find? (·.name == name), value with
  | some switch, none => p.put switch
  | some switch, some _ => .error (.unwantedValue switch)
  | none, _ =>
    match p.level.settings.find? (·.name == name), value with
    | some setting, some value => p.set cores setting value
    | some setting, none => .ok { p with pending := some setting }
    | none, _ => .error (.unknownWord name)

/-- Reads letters. Behind the letter of a setting stands its value, unless nothing is left. -/
def readLetters (cores : Nat) (p : Progress) : List Char → Except UsageFault Progress
  | [] => .ok p
  | c :: rest =>
    match p.level.switches.find? (·.letter? == some c) with
    | some switch =>
      match p.put switch with
      | .ok p => readLetters cores p rest
      | .error fault => .error fault
    | none =>
      match p.level.settings.find? (·.letter? == some c), rest with
      | some setting, [] => .ok { p with pending := some setting }
      | some setting, '=' :: value => p.set cores setting (String.ofList value)
      | some setting, value => p.set cores setting (String.ofList value)
      | none, _ => .error (.unknownWord c.toString)

/-- Reads a word that is neither a switch nor a setting nor a value. -/
def readOther (p : Progress) (word : String) : Except UsageFault Progress :=
  match if p.onlyTasks then none else p.level.command? word with
  | some level => do
    return { p with level, given := {}, outer := (← p.given.consistent).inside p.outer }
  | none =>
    if p.level.takesTasks then
      .ok { p with given := { p.given with tasks := p.given.tasks ++ [word] } }
    else .error (.unknownWord word)

/-- Reads a word that begins with a hyphen and has more characters, the hyphen left out. -/
def readHyphenated (cores : Nat) (p : Progress) : List Char → Except UsageFault Progress
  | ['-'] => .ok { p with onlyTasks := true }
  | '-' :: name =>
    match Text.splitOnce? '=' (String.ofList name) with
    | some (name, value) => p.readName cores name (some value)
    | none => p.readName cores (String.ofList name) none
  | letters => p.readLetters cores letters

/-- Reads a word. -/
def read (cores : Nat) (p : Progress) (word : String) : Except UsageFault Progress :=
  if p.onlyTasks then p.readOther word
  else
    match word.toList, p.pending with
    | '-' :: _ :: _, some setting => .error (.missingValue setting)
    | '-' :: c :: rest, none => p.readHyphenated cores (c :: rest)
    | _, some setting => p.set cores setting word
    | _, none => p.readOther word

/-- The command that has been read. -/
def command? (level : Level) (given : Given) : Option Command :=
  match level with
  | .top => none
  | .phases => some (.phases given.lifecycle (given.has .points))
  | .plan => some (.plan given.tasks (given.has .json))
  | .run => some (.run given.tasks (given.has .json))
  | .config => some .showSettings
  | .configShow => some .showSettings
  | .configValidate => some .validate

/-- The invocation, when all words have been read. -/
def finish (p : Progress) : Except UsageFault Invocation := do
  if let some setting := p.pending then throw (.missingValue setting)
  let given := (← p.given.consistent).inside p.outer
  match command? p.level given with
  | none => throw .missingCommand
  | some command =>
    return { command, manifest := given.manifest, config := given.config
             overrides := given.overrides }

end Progress

/-- Reads the words of a command line. -/
def Invocation.ofWords (cores : Nat) (words : List String) : Except UsageFault Invocation := do
  (← words.foldlM (Progress.read cores) {}).finish

end PhasedBuild.CommandLine
