import PhasedBuild.Pattern.Validity
import PhasedBuild.Settings.Words
import PhasedBuild.Text.Bytes
import PhasedBuild.Text.Split

/-!
# Filters of the log

A filter is a list of directives with commas between them. A directive names a level, or a target or
a span of the program with the level that holds there: `info`, `build=debug`, `[step]=trace`,
`build[step{unit=app.*}]=warn`.

* `LogFilter.isValid` says whether a text is a filter.
-/

namespace PhasedBuild.LogFilter

/-- Whether a text names a level: by its name in any case, by its number, or not at all. -/
def isLevel (s : String) : Bool :=
  s.isEmpty || (Settings.count? s).any (· ≤ 5) ||
    ["error", "warn", "info", "debug", "trace", "off"].any (Text.sameLetters · s)

/-- Whether a character can begin the name of a target. -/
def isTargetStart (c : Char) : Bool :=
  ['-', ':', '_'].contains c || Text.isAlphanumeric c

/-- What is left behind the first character that `stop` accepts, that character being the first. -/
def from? (stop : Char → Bool) (cs : List Char) : Option (Char × List Char) :=
  match cs.dropWhile (!stop ·) with
  | [] => none
  | c :: rest => some (c, rest)

/-- Whether a text is a field of a span: its name, or its name and what its value has to be. A value
is a number or else a pattern. -/
def isField (cs : List Char) : Bool :=
  match Text.splitOn '=' (String.ofList cs) with
  | _ :: value :: _ => (Decimal.Reading.parse? value).isSome || Pattern.isValid value.toList
  | _ => true

/-- What a directive consists of. -/
structure Directive where
  /-- The place of the field of its span: its first byte, and the number of its bytes. -/
  field : Option (Nat × Nat) := none
  /-- The level, if one is given. -/
  level : Option String := none

/-- The level that is given by what is left of a directive, if anything is left. -/
def level? : List Char → Option (Option String)
  | [] => some none
  | '=' :: level => some (some (String.ofList level))
  | _ => none

/-- What follows a span between its brackets, whose opening one has been passed. A field of the span
stands between braces. `size` is the size of the whole directive. -/
def afterSpan? (size : Nat) (cs : List Char) : Option Directive :=
  match from? (fun c => c = ']' || c = '\x7b') cs with
  | none => none
  | some (']', rest) => (level? rest).map fun level => { level }
  | some (_, rest) =>
    let field := rest.takeWhile (· != '\x7d')
    match field, rest.drop field.length with
    | [], _ => none
    | _, '\x7d' :: ']' :: behind =>
      (level? behind).map fun level =>
        { field := some (size - Text.byteCount rest, Text.byteCount field), level }
    | _, _ => none

/-- Takes a directive apart. -/
def directive? (cs : List Char) : Option Directive :=
  match cs with
  | [] => none
  | '[' :: rest => afterSpan? (Text.byteCount cs) rest
  | c :: _ =>
    if !isTargetStart c then none
    else match from? (fun c => c = '=' || c = '[') cs with
      | none => some {}
      | some ('=', level) => some { level := some (String.ofList level) }
      | some (_, rest) => afterSpan? (Text.byteCount cs) rest

/-- Whether a text is a directive. Blanks may stand around one that gives no level. A field is
looked for at the place that it has without the blanks. -/
def isDirective (s : String) : Bool :=
  match directive? (Text.trimChars s.toList) with
  | none => false
  | some d =>
    d.level.all (fun level => Text.trim s == s && isLevel level) &&
    d.field.all fun (first, count) =>
      ((Text.dropBytes? first s.toList).bind (Text.takeBytes? count)).any isField

/-- Whether a text is a filter. Empty directives do not count. -/
def isValid (s : String) : Bool :=
  (Text.splitOn ',' s).all fun directive => directive.isEmpty || isDirective directive

end PhasedBuild.LogFilter
