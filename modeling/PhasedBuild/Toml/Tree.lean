import PhasedBuild.Datum

/-!
# Tables of TOML while they grow

A document defines its tables piece by piece, and what may still be added to a table depends on how
it came into being.

* `Toml.Tree.insert?` adds a value under a key of several parts.
* `Toml.Tree.open?` defines a table by its header, and `Toml.Tree.append?` adds a table to a list of
  tables.
-/

namespace PhasedBuild.Toml

/-- How a table came into being. -/
inductive Origin where
  /-- It holds a table that was defined by a header. -/
  | implied
  /-- It was defined by a key of several parts, or got a value by such a key. -/
  | dotted
  /-- It was defined by its own header. -/
  | header
deriving Repr, DecidableEq

/-- What stands under a key. -/
inductive Tree where
  /-- A value, to which nothing can be added. -/
  | value (value : Datum)
  | table (origin : Origin) (fields : List (String × Tree))
  /-- The tables of a list, the last one first. -/
  | tables (items : List (List (String × Tree)))

namespace Tree

/-- The fields of a table that is growing. -/
abbrev Branches := List (String × Tree)

/-- The field of a name. -/
def find? (name : String) (fields : Branches) : Option Tree :=
  (fields.find? (·.1 == name)).map (·.2)

/-- Puts a field into a table, in the place of one of the same name. -/
def put (name : String) (tree : Tree) (fields : Branches) : Branches :=
  if fields.any (·.1 == name) then
    fields.map fun field => if field.1 == name then (name, tree) else field
  else fields ++ [(name, tree)]

/-- Adds a value under a key. Tables on the way must not have been defined by headers; those that
are missing are made. A list of tables on the way stands for its last one, which is open to keys of
its own tables only. The table that gets the value counts as defined by the key. -/
def insert? (value : Tree) (fields : Branches) : List String → Option Branches
  | [] => none
  | [name] => if (find? name fields).isSome then none else some (put name value fields)
  | name :: next :: path =>
    match find? name fields with
    | none =>
      (insert? value [] (next :: path)).map fun inner => put name (.table .dotted inner) fields
    | some (.table .header _) => none
    | some (.table origin inner) =>
      let origin := if path.isEmpty then .dotted else origin
      (insert? value inner (next :: path)).map fun inner => put name (.table origin inner) fields
    | some (.tables (last :: others)) =>
      if path.isEmpty then none
      else (insert? value last (next :: path)).map fun last =>
        put name (.tables (last :: others)) fields
    | some _ => none

/-- Changes the table at a path of headers. A list of tables on the way stands for its last one;
tables that are missing are made. -/
def changeAt? (change : Branches → Option Branches) (fields : Branches) :
    List String → Option Branches
  | [] => change fields
  | name :: path =>
    match find? name fields with
    | none =>
      (changeAt? change [] path).map fun inner => put name (.table .implied inner) fields
    | some (.table origin inner) =>
      (changeAt? change inner path).map fun inner => put name (.table origin inner) fields
    | some (.tables (last :: others)) =>
      (changeAt? change last path).map fun last => put name (.tables (last :: others)) fields
    | some _ => none

/-- Defines a table by its name in the table that holds it. -/
def openHere? (name : String) (fields : Branches) : Option Branches :=
  match find? name fields with
  | none => some (put name (.table .header []) fields)
  | some (.table .implied inner) => some (put name (.table .header inner) fields)
  | some _ => none

/-- Adds a table to the list of a name in the table that holds it. -/
def appendHere? (name : String) (fields : Branches) : Option Branches :=
  match find? name fields with
  | none => some (put name (.tables [[]]) fields)
  | some (.tables items) => some (put name (.tables ([] :: items)) fields)
  | some _ => none

/-- Defines a table by its header. -/
def open? (fields : Branches) (path : List String) : Option Branches :=
  path.getLast?.bind fun name => changeAt? (openHere? name) fields path.dropLast

/-- Adds a table to a list of tables. -/
def append? (fields : Branches) (path : List String) : Option Branches :=
  path.getLast?.bind fun name => changeAt? (appendHere? name) fields path.dropLast

mutual

/-- The finished value. -/
def toDatum : Tree → Datum
  | .value datum => datum
  | .table _ fields => .table (toFields fields)
  | .tables items => .list (toItems items [])

/-- The finished fields of a table. -/
def toFields : Branches → List (String × Datum)
  | [] => []
  | (name, tree) :: rest => (name, tree.toDatum) :: toFields rest

/-- The finished tables of a list in their order. -/
def toItems : List Branches → List Datum → List Datum
  | [], items => items
  | fields :: rest, items => toItems rest (.table (toFields fields) :: items)

end

end Tree

end PhasedBuild.Toml
