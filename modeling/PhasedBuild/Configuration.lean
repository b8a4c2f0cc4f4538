import PhasedBuild.Datum
import PhasedBuild.Datum.Reading
import PhasedBuild.Keyed
import PhasedBuild.Text.Split
import PhasedBuild.Toml.Moment
import PhasedBuild.Toml.Printer

/-!
# Configuration trees

A configuration is a tree of named nodes with an optional value, attributes and children.

* `ConfigNode.mergedOver` lays a dominant tree over a recessive one. The `n`-th recessive child of a
  name is merged with the `n`-th dominant child of that name; a recessive child without a partner
  follows the dominant children.
* `ConfigNode.ofDatum?` reads a tree from data: tables become children, lists become repeated
  children, and a field whose name begins with `@` becomes an attribute.
-/

namespace PhasedBuild

/-- A named node of a configuration. Attributes are in the order of their names. -/
structure ConfigNode where
  name : String
  value : Option String := none
  attributes : List (String × String) := []
  children : List ConfigNode := []
deriving Repr, Inhabited, BEq

namespace ConfigNode

/-- The name of the root of every step's configuration. -/
def rootName : String := "configuration"

/-- The attribute that holds a parameter's declared default. -/
def defaultValueKey : String := "default-value"

/-- The attribute that holds the type that a parameter is turned into. -/
def implementationKey : String := "implementation"

/-- The first child of a name. -/
def child? (node : ConfigNode) (name : String) : Option ConfigNode :=
  node.children.find? (·.name == name)

/-- The value of an attribute. -/
def attribute? (node : ConfigNode) (name : String) : Option String :=
  Keyed.find? name node.attributes

/-- The node under another name. -/
def renamed (node : ConfigNode) (name : String) : ConfigNode :=
  { node with name }

/-- Gives an attribute a value if it has none. -/
def fillAttribute (node : ConfigNode) (name value : String) : ConfigNode :=
  { node with attributes := Keyed.fillFrom node.attributes [(name, value)] }

/-! ### Merging -/

/-- Changes the `n`-th node called `name` by `change`, or adds `added` behind the others if there is
no such node. -/
def updateNth (name : String) (change : ConfigNode → ConfigNode) (added : ConfigNode) :
    Nat → List ConfigNode → List ConfigNode
  | _, [] => [added]
  | n, node :: rest =>
    if node.name = name then
      match n with
      | 0 => change node :: rest
      | n + 1 => node :: updateNth name change added n rest
    else node :: updateNth name change added n rest

mutual

/-- The node with what the recessive node has and it has not. -/
def mergedOver (dominant : ConfigNode) : ConfigNode → ConfigNode
  | ⟨_, value, attributes, children⟩ =>
    { dominant with
      value := dominant.value.or value
      attributes := Keyed.fillFrom dominant.attributes attributes
      children := mergeChildren dominant.children [] children }

/-- Merges recessive children one by one into `merged`; `seen` are the names of those before. -/
def mergeChildren (merged : List ConfigNode) (seen : List String) :
    List ConfigNode → List ConfigNode
  | [] => merged
  | recessive :: rest =>
    mergeChildren
      (updateNth recessive.name (fun dominant => dominant.mergedOver recessive) recessive
        (seen.count recessive.name) merged)
      (recessive.name :: seen) rest

end

@[simp] theorem name_mergedOver (dominant recessive : ConfigNode) :
    (dominant.mergedOver recessive).name = dominant.name := by
  cases recessive; simp [mergedOver]

@[simp] theorem value_mergedOver (dominant recessive : ConfigNode) :
    (dominant.mergedOver recessive).value = dominant.value.or recessive.value := by
  cases recessive; simp [mergedOver]

/-- A configuration over one that may be missing. -/
def overOption (dominant : ConfigNode) : Option ConfigNode → ConfigNode
  | some recessive => dominant.mergedOver recessive
  | none => dominant

/-- Two configurations either of which may be missing, the first over the second. -/
def mergeOptions : Option ConfigNode → Option ConfigNode → Option ConfigNode
  | some dominant, recessive => some (dominant.overOption recessive)
  | none, recessive => recessive

/-! ### Data that a configuration can hold -/

/-- Whether a table stands for a date or time: the key that says so is the first in the order of
keys. -/
def isMoment (fields : List (String × Datum)) : Bool :=
  fields.any (·.1 == Datum.momentKey) && fields.all (Datum.momentKey ≤ ·.1)

/-- The date or time for which a table stands. In TOML its other fields are passed over. -/
def moment? (format : DataFormat) (fields : List (String × Datum)) : Option Datum :=
  match (Datum.table fields).get? Datum.momentKey with
  | some (.text s) =>
    if format = .json && 1 < fields.length then none else (Toml.moment? s.toList).map .moment
  | _ => none

mutual

/-- What a configuration holds for a datum: all values are present, all integers fit into 64 bits,
and the fields of tables are in the order of their keys. -/
def value? (format : DataFormat) : Datum → Option Datum
  | .null => none
  | .oversized => none
  | .bool b => some (.bool b)
  | .int i => if Datum.fitsInt64 i then some (.int i) else none
  | .float x => some (.float x)
  | .text s => some (.text s)
  | .moment s => some (.moment s)
  | .list items => (values? format items).map .list
  | .table fields =>
    if isMoment fields then moment? format fields else (fieldValues? format fields).map .table

/-- `value?` for the items of a list. -/
def values? (format : DataFormat) : List Datum → Option (List Datum)
  | [] => some []
  | item :: rest =>
    match value? format item, values? format rest with
    | some item, some rest => some (item :: rest)
    | _, _ => none

/-- `value?` for the fields of a table, which are put into order. -/
def fieldValues? (format : DataFormat) : List (String × Datum) → Option (List (String × Datum))
  | [] => some []
  | (key, value) :: rest =>
    match value? format value, fieldValues? format rest with
    | some value, some rest => some (Keyed.insert key value rest)
    | _, _ => none

end

/-! ### Reading from data -/

/-- A scalar as the value of a node or an attribute: a text is itself, anything else is written
out. -/
def scalarText : Datum → String
  | .text s => s
  | other => Toml.inline other

mutual

/-- The node of a name that a value stands for. -/
def ofValue (name : String) : Datum → ConfigNode
  | .table fields => addFields { name } fields
  | .list items => { name, children := repeated name items }
  | other => { name, value := some (scalarText other) }

/-- The children of one name that the items of a list stand for. -/
def repeated (name : String) : List Datum → List ConfigNode
  | [] => []
  | item :: rest => ofValue name item :: repeated name rest

/-- A node with the attributes and children that the fields of a table stand for. -/
def addFields (node : ConfigNode) : List (String × Datum) → ConfigNode
  | [] => node
  | (key, value) :: rest =>
    match Text.after? "@" key with
    | some bare =>
      let attributes := Keyed.insert bare (scalarText value) node.attributes
      addFields { node with attributes } rest
    | none =>
      let added := match value with
        | .list items => repeated key items
        | other => [ofValue key other]
      addFields { node with children := node.children ++ added } rest

end

/-- The node of a name that a datum stands for. -/
def ofDatum? (format : DataFormat) (name : String) (datum : Datum) : Option ConfigNode :=
  (value? format datum).map (ofValue name)

/-- The root of a configuration, read from a table, which is taken field by field. -/
def ofTable? (format : DataFormat) : Datum → Option ConfigNode
  | .table fields => (fieldValues? format fields).map (addFields { name := rootName })
  | .moment s => some (addFields { name := rootName } [(Datum.momentKey, .text s)])
  | _ => none

/-! ### Nodes written out -/

mutual

/-- The node written out as data; what is empty is left out. -/
def toDatum : ConfigNode → Datum
  | ⟨name, value, attributes, children⟩ =>
    .record [
      ("name", some (.text name)),
      ("value", value.map .text),
      ("attributes", if attributes.isEmpty then none
        else some (.table (attributes.map fun (k, v) => (k, .text v)))),
      ("children", Datum.unlessEmpty (toData children))]

/-- Nodes written out as data. -/
def toData : List ConfigNode → List Datum
  | [] => []
  | node :: rest => node.toDatum :: toData rest

end

/-- The fields that were found of a node that is being read. -/
structure Parts where
  name : Option String := none
  value : Option String := none
  attributes : List (String × String) := []
  children : List ConfigNode := []

mutual

/-- Reads a node that is written out; unknown fields are passed over. -/
def read? : Datum → Option ConfigNode
  | .table fields =>
    match readFields? fields with
    | some ⟨some name, value, attributes, children⟩ => some { name, value, attributes, children }
    | _ => none
  | _ => none

/-- Reads the items of a list of nodes. -/
def readItems? : List Datum → Option (List ConfigNode)
  | [] => some []
  | item :: rest =>
    match read? item, readItems? rest with
    | some node, some nodes => some (node :: nodes)
    | _, _ => none

/-- Reads the fields of a node. -/
def readFields? : List (String × Datum) → Option Parts
  | [] => some {}
  | (key, value) :: rest =>
    match readFields? rest with
    | none => none
    | some parts =>
      if key = "name" then value.text?.map fun name => { parts with name := some name }
      else if key = "value" then
        match value with
        | .null => some parts
        | value => value.text?.map fun s => { parts with value := some s }
      else if key = "attributes" then
        (value.map? Datum.text?).map fun attributes => { parts with attributes }
      else if key = "children" then
        match value with
        | .list items => (readItems? items).map fun children => { parts with children }
        | _ => none
      else some parts

end

end ConfigNode

end PhasedBuild
