import PhasedBuild.Datum
import PhasedBuild.Decimal.Shortest
import PhasedBuild.Text.Quoted

/-!
# Data written as JSON

`Json.pretty` puts every item and field on a line of its own, two columns further in than the
bracket that holds it; `Json.compact` uses no blanks at all. Numbers are written in full, without
exponents.
-/

namespace PhasedBuild.Json

/-- A character inside a JSON string. -/
def escape (c : Char) : String :=
  if c = '\x22' then "\\\""
  else if c = '\x5c' then "\\\\"
  else if c = '\n' then "\\n"
  else if c = '\r' then "\\r"
  else if c = '\t' then "\\t"
  else if c.toNat = 8 then "\\b"
  else if c.toNat = 12 then "\\f"
  else if c.toNat < 0x20 then
    let digits := Text.hexDigits c.toNat
    "\\u" ++ String.ofList (List.replicate (4 - digits.length) '0') ++ digits
  else c.toString

/-- A JSON string. -/
def string (s : String) : String :=
  "\"" ++ String.join (s.toList.map escape) ++ "\""

/-- A line break and the indentation of a nesting depth. -/
def newline (depth : Nat) : String :=
  "\n" ++ String.ofList (List.replicate (2 * depth) ' ')

mutual

/-- A datum over several lines, its first character being at nesting depth `depth`. -/
def prettyAt (depth : Nat) : Datum → String
  | .null => "null"
  | .oversized => "null"
  | .bool b => if b then "true" else "false"
  | .int i => toString i
  | .float x => Decimal.floatText x
  | .text s => string s
  | .moment s => string s
  | .list [] => "[]"
  | .list (item :: rest) =>
    "[" ++ newline (depth + 1) ++ prettyAt (depth + 1) item ++ prettyItems (depth + 1) rest ++
      newline depth ++ "]"
  | .table [] => "\x7b\x7d"
  | .table ((key, value) :: rest) =>
    "\x7b" ++ newline (depth + 1) ++ string key ++ ": " ++ prettyAt (depth + 1) value ++
      prettyFields (depth + 1) rest ++ newline depth ++ "\x7d"

/-- The further items of a list. -/
def prettyItems (depth : Nat) : List Datum → String
  | [] => ""
  | item :: rest => "," ++ newline depth ++ prettyAt depth item ++ prettyItems depth rest

/-- The further fields of a table. -/
def prettyFields (depth : Nat) : List (String × Datum) → String
  | [] => ""
  | (key, value) :: rest =>
    "," ++ newline depth ++ string key ++ ": " ++ prettyAt depth value ++ prettyFields depth rest

end

/-- A datum over several lines. -/
def pretty (d : Datum) : String :=
  prettyAt 0 d

mutual

/-- A datum on one line. -/
def compact : Datum → String
  | .null => "null"
  | .oversized => "null"
  | .bool b => if b then "true" else "false"
  | .int i => toString i
  | .float x => Decimal.floatText x
  | .text s => string s
  | .moment s => string s
  | .list items => "[" ++ compactItems true items ++ "]"
  | .table fields => "\x7b" ++ compactFields true fields ++ "\x7d"

/-- The items of a list; the first has no comma before it. -/
def compactItems (first : Bool) : List Datum → String
  | [] => ""
  | item :: rest => (if first then "" else ",") ++ compact item ++ compactItems false rest

/-- The fields of a table; the first has no comma before it. -/
def compactFields (first : Bool) : List (String × Datum) → String
  | [] => ""
  | (key, value) :: rest =>
    (if first then "" else ",") ++ string key ++ ":" ++ compact value ++ compactFields false rest

end

end PhasedBuild.Json
