import PhasedBuild.Datum
import PhasedBuild.Keyed

/-!
# Reading values from data

A reader turns a datum into a value of a domain type, or refuses it. Records are read by field:

* `Fields.required` wants the field to be there,
* `Fields.optional` reads an absent or null field as no value,
* `Fields.withDefault` has a value for an absent field, but a field that is given must be readable.

A record may also be written as the list of its fields' values in the order of their declaration.
What else is allowed depends on the format of the data: TOML has no null, so an empty list or table
takes its place, and surplus items of a list that stands for a record are passed over; in JSON they
are not.
-/

namespace PhasedBuild

/-- The format in which data were written. -/
inductive DataFormat where
  | json
  | toml
deriving Repr, Inhabited, DecidableEq

namespace Datum

/-- The key of the only field of the table for which a date or time stands; its value is the date or
time as a text. -/
def momentKey : String := "$__toml_private_datetime"

/-- The value of a text. -/
def text? : Datum → Option String
  | .text s => some s
  | _ => none

/-- The value of a truth value. -/
def bool? : Datum → Option Bool
  | .bool b => some b
  | _ => none

/-- The value of an integer in a range, both ends included. -/
def intWithin? (lowest highest : Int) : Datum → Option Int
  | .int i => if lowest ≤ i && i ≤ highest then some i else none
  | _ => none

/-- The greatest count that fits into 64 bits. -/
def maxCount : Nat :=
  0xFFFFFFFFFFFFFFFF

/-- The value of an integer that is a count of 64 bits. -/
def count? (d : Datum) : Option Nat :=
  (d.intWithin? 0 maxCount).map Int.toNat

/-- The value of an integer of 32 bits with a sign. -/
def int32? : Datum → Option Int :=
  intWithin? (-0x80000000) 0x7FFFFFFF

variable {α : Type}

/-- The values of the items of a list. -/
def list? (read : Datum → Option α) : Datum → Option (List α)
  | .list items => items.mapM read
  | _ => none

/-- The values of the fields of a table, in the order of their keys. -/
def map? (read : Datum → Option α) : Datum → Option (List (String × α))
  | .table fields =>
    (fields.mapM fun field => (read field.2).map fun value => (field.1, value)).map Keyed.ofList
  | .moment s => (read (.text s)).map fun value => [(momentKey, value)]
  | _ => none

/-- Whether a datum takes the place of a value that there is not. -/
def isVoid (format : DataFormat) (d : Datum) : Bool :=
  match format, d with
  | .json, .null => true
  | .toml, .list [] => true
  | .toml, .table [] => true
  | _, _ => false

/-- A word of a fixed list of alternatives: the text itself, or a table with the word as its only
key and no value under it. -/
def word? (format : DataFormat) (read : String → Option α) : Datum → Option α
  | .text s => read s
  | .table [(s, value)] => if value.isVoid format then read s else none
  | _ => none

end Datum

/-- The fields of a record that is being read. -/
structure Fields where
  find? : String → Option Datum

namespace Fields

/-- The fields of a table, or of a list that gives them in the order of `names`. A table may have
more fields as long as they are readable. -/
def of? (format : DataFormat) (names : List String) : Datum → Option Fields
  | .table fields =>
    if fields.all fun field => names.contains field.1 || field.2.isReadable then
      some ⟨fun name => (Datum.table fields).get? name⟩
    else none
  | .list items =>
    if format = .toml || items.length ≤ names.length then
      some ⟨fun name => (Datum.table (names.zip items)).get? name⟩
    else none
  | .moment _ => some ⟨fun _ => none⟩
  | _ => none

/-- The fields of a record that stands under the word of one of several alternatives. In TOML it has
no other fields than `names`, and in JSON it is a table. -/
def ofAlternative? (format : DataFormat) (names : List String) (d : Datum) : Option Fields :=
  match format, d with
  | .toml, .table fields =>
    if fields.all (names.contains ·.1) then of? .toml names (.table fields) else none
  | .toml, d => of? .toml names d
  | .json, .table fields => of? .json names (.table fields)
  | .json, _ => none

variable {α : Type}

/-- A field that must be there. -/
def required (fields : Fields) (name : String) (read : Datum → Option α) : Option α :=
  (fields.find? name).bind read

/-- A field that may be absent or null. -/
def optional (fields : Fields) (name : String) (read : Datum → Option α) : Option (Option α) :=
  match fields.find? name with
  | none => some none
  | some .null => some none
  | some value => (read value).map some

/-- A field with a value for the case that it is absent. -/
def withDefault (fields : Fields) (name : String) (default : α) (read : Datum → Option α) :
    Option α :=
  match fields.find? name with
  | none => some default
  | some value => read value

end Fields

end PhasedBuild
