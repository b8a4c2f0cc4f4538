/-!
# Data

Manifests, settings and step configurations are read from and written as plain data: texts, numbers,
lists and tables. `Datum` is that data, whichever notation it comes from.

* `Datum.get?` is a field of a table.
* `Datum.record` is the table of the fields that have a value.
* `Datum.isReadable` and `Datum.isStorable` say that no part of a datum is too great.
-/

namespace PhasedBuild

/-- A piece of data. -/
inductive Datum where
  /-- The absence of a value where a notation can state it. -/
  | null
  | bool (value : Bool)
  | int (value : Int)
  | float (value : Float)
  /-- A number that was written but is too great to be read. -/
  | oversized
  | text (value : String)
  /-- A date, a time of day or both, in its canonical form. -/
  | moment (value : String)
  | list (items : List Datum)
  /-- A table with its fields in the order in which they were given. -/
  | table (fields : List (String × Datum))
deriving Repr, Inhabited, BEq

namespace Datum

/-- The value of a field of a table; other data have no fields. -/
def get? (name : String) : Datum → Option Datum
  | .table fields => (fields.find? (·.1 == name)).map (·.2)
  | _ => none

/-- The table of those fields that have a value. -/
def record (fields : List (String × Option Datum)) : Datum :=
  .table (fields.filterMap fun (name, value) => value.map (name, ·))

/-- A natural number. -/
def nat (n : Nat) : Datum :=
  .int n

/-- A list of texts. -/
def texts (values : List String) : Datum :=
  .list (values.map .text)

/-- A value, or the explicit absence of one. -/
def orNull : Option Datum → Datum
  | some value => value
  | none => .null

/-- A list as a field that is left out when it is empty. -/
def unlessEmpty : List Datum → Option Datum
  | [] => none
  | items => some (.list items)

/-- Whether an integer fits into 64 bits with a sign. -/
def fitsInt64 (i : Int) : Bool :=
  -0x8000000000000000 ≤ i && i < 0x8000000000000000

/-- Whether an integer fits into 64 bits without a sign. -/
def fitsCount (i : Int) : Bool :=
  0 ≤ i && i < 0x10000000000000000

mutual

/-- Whether all parts of a piece of data can be read, be they of use or not. -/
def isReadable : Datum → Bool
  | .oversized => false
  | .list items => allReadable items
  | .table fields => fieldsReadable fields
  | _ => true

/-- `isReadable` for every item of a list. -/
def allReadable : List Datum → Bool
  | [] => true
  | item :: rest => item.isReadable && allReadable rest

/-- `isReadable` for every field of a table. -/
def fieldsReadable : List (String × Datum) → Bool
  | [] => true
  | (_, value) :: rest => value.isReadable && fieldsReadable rest

end

mutual

/-- Whether a piece of data is readable and its integers fit into 64 bits, signed or not. -/
def isStorable : Datum → Bool
  | .oversized => false
  | .int i => fitsInt64 i || fitsCount i
  | .list items => allStorable items
  | .table fields => fieldsStorable fields
  | _ => true

/-- `isStorable` for every item of a list. -/
def allStorable : List Datum → Bool
  | [] => true
  | item :: rest => item.isStorable && allStorable rest

/-- `isStorable` for every field of a table. -/
def fieldsStorable : List (String × Datum) → Bool
  | [] => true
  | (_, value) :: rest => value.isStorable && fieldsStorable rest

end

end Datum

end PhasedBuild
