import PhasedBuild.Datum
import PhasedBuild.Decimal.Shortest
import PhasedBuild.Text.Quoted

/-!
# Data written as TOML

* `Toml.string` chooses the plainest kind of string that can hold a text: between double quotes when
  nothing in it needs an escape, else between single quotes, else over several lines, and with
  escapes only when no other kind will do.
* `Toml.inline` writes a value on one line.
* `Toml.sections` writes a document of one table per section.
-/

namespace PhasedBuild.Toml

/-- The length of the longest run of `c`. -/
def longestRun (c : Char) (cs : List Char) : Nat :=
  (cs.foldl (fun (best, run) x =>
    let run := if x = c then run + 1 else 0
    (Nat.max best run, run)) ((0, 0) : Nat × Nat)).1

/-- Whether a text holds a control that only an escape can express. -/
def hasControl (cs : List Char) : Bool :=
  cs.any fun c => (c.toNat < 0x20 && c != '\t' && c != '\n') || c.toNat = 0x7F

/-- A number with at least four hexadecimal digits, in upper case. -/
def codeDigits (n : Nat) : String :=
  let digits := (Text.hexDigits n).toList.map Char.toUpper
  String.ofList (List.replicate (4 - digits.length) '0' ++ digits)

/-- The text between double quotes. A run of double quotes longer than `quotes` is broken by
escapes; line breaks stay as they are where `multiline` allows them. -/
def escaped (multiline : Bool) (quotes : Nat) : Nat → List Char → String
  | _, [] => ""
  | run, c :: cs =>
    if c = '\x22' then
      if quotes < run + 1 then "\\\"" ++ escaped multiline quotes 0 cs
      else "\"" ++ escaped multiline quotes (run + 1) cs
    else
      let shown :=
        if c.toNat = 8 then "\\b"
        else if c = '\t' then "\\t"
        else if c = '\n' then (if multiline then "\n" else "\\n")
        else if c.toNat = 12 then "\\f"
        else if c = '\r' then "\\r"
        else if c = '\x5c' then "\\\\"
        else if c.toNat < 0x20 || c.toNat = 0x7F then "\\u" ++ codeDigits c.toNat
        else c.toString
      shown ++ escaped multiline quotes 0 cs

/-- A text as a string value. -/
def string (s : String) : String :=
  let cs := s.toList
  let control := hasControl cs
  let backslash := cs.contains '\x5c'
  let lines := cs.contains '\n'
  let doubles := longestRun '\x22' cs
  let singles := longestRun '\x27' cs
  let opening := if lines then "\n" else ""
  if !control && !backslash && doubles = 0 && !lines then "\"" ++ escaped false 0 0 cs ++ "\""
  else if !control && singles = 0 && !lines then "'" ++ s ++ "'"
  else if !control && !backslash && doubles ≤ 2 then
    "\"\"\"" ++ opening ++ escaped true 2 0 cs ++ "\"\"\""
  else if !control && singles ≤ 2 then "'''" ++ opening ++ s ++ "'''"
  else if lines then "\"\"\"" ++ opening ++ escaped true 2 0 cs ++ "\"\"\""
  else "\"" ++ escaped false 0 0 cs ++ "\""

/-- Whether a character may stand in a key without quotes. -/
def isBareKeyChar (c : Char) : Bool :=
  c.isAlphanum || c = '_' || c = '-'

/-- A key, between quotes if it needs them. -/
def key (s : String) : String :=
  let cs := s.toList
  if !cs.isEmpty && cs.all isBareKeyChar then s
  else if !hasControl cs && !cs.contains '\n' && !cs.contains '\x5c' && !cs.contains '\x22' then
    "\"" ++ escaped false 0 0 cs ++ "\""
  else if !hasControl cs && !cs.contains '\n' && !cs.contains '\x27' then "'" ++ s ++ "'"
  else "\"" ++ escaped false 0 0 cs ++ "\""

mutual

/-- A value on one line. -/
def inline : Datum → String
  | .null => ""
  | .oversized => ""
  | .bool b => if b then "true" else "false"
  | .int i => toString i
  | .float x => Decimal.floatText x
  | .text s => string s
  | .moment s => s
  | .list items => "[" ++ inlineItems true items ++ "]"
  | .table [] => "\x7b\x7d"
  | .table (field :: rest) => "\x7b " ++ inlineFields true (field :: rest) ++ " \x7d"

/-- The items of a list; the first has no comma before it. -/
def inlineItems (first : Bool) : List Datum → String
  | [] => ""
  | item :: rest => (if first then "" else ", ") ++ inline item ++ inlineItems false rest

/-- The fields of a table; the first has no comma before it. -/
def inlineFields (first : Bool) : List (String × Datum) → String
  | [] => ""
  | (name, value) :: rest =>
    (if first then "" else ", ") ++ key name ++ " = " ++ inline value ++ inlineFields false rest

end

/-- One table of a document: its header and a line for each field. -/
def sectionText (name : String) (fields : List (String × Datum)) : String :=
  "[" ++ key name ++ "]\n" ++
    String.join (fields.map fun (k, v) => key k ++ " = " ++ inline v ++ "\n")

/-- A document of tables with a blank line between each two. -/
def sections (tables : List (String × List (String × Datum))) : String :=
  String.intercalate "\n" (tables.map fun (name, fields) => sectionText name fields)

end PhasedBuild.Toml
