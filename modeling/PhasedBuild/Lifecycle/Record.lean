import PhasedBuild.Datum.Reading
import PhasedBuild.Lifecycle
import PhasedBuild.Phase.Graph

/-!
# Phases and lifecycles as data

* `Phase.ofDatum?` and `Lifecycle.ofDatum?` read what `Phase.toDatum` and `Lifecycle.toDatum` write.
  Empty lists are left out when they are written.
-/

namespace PhasedBuild

/-- Reads the target of a link. -/
def Pointer.ofDatum? (format : DataFormat) : Datum → Option Pointer
  | .table [("phase", .text name)] => some (.phase name)
  | .table [("children", .text name)] => some (.children name)
  | .table [("dependencies", value)] => do
    let fields ← Fields.ofAlternative? format ["scope", "phase"] value
    let scope ← fields.required "scope" Datum.text?
    let name ← fields.required "phase" Datum.text?
    return .dependencies scope name
  | _ => none

/-- The target of a link as data. -/
def Pointer.toDatum : Pointer → Datum
  | .phase name => .table [("phase", .text name)]
  | .children name => .table [("children", .text name)]
  | .dependencies scope name =>
    .table [("dependencies", .table [("scope", .text scope), ("phase", .text name)])]

/-- Reads a link. -/
def Link.ofDatum? (format : DataFormat) (d : Datum) : Option Link := do
  let fields ← Fields.of? format ["kind", "pointer"] d
  let kind ← fields.required "kind" (Datum.word? format LinkKind.ofName?)
  let pointer ← fields.required "pointer" (Pointer.ofDatum? format)
  return { kind, pointer }

/-- A link as data. -/
def Link.toDatum (link : Link) : Datum :=
  .table [("kind", .text link.kind.name), ("pointer", link.pointer.toDatum)]

namespace Phase

/-- What has been read of a phase. -/
structure Parts where
  name : Option String := none
  phases : List Phase := []
  links : List Link := []
  bindings : List String := []

/-- The phase, if its name has been read. -/
def Parts.phase? : Parts → Option Phase
  | ⟨some name, phases, links, bindings⟩ => some { name, phases, links, bindings }
  | _ => none

/-- The fields of a phase in their order. -/
def fieldNames : List String :=
  ["name", "phases", "links", "bindings"]

mutual

/-- Reads a phase. -/
def ofDatum? (format : DataFormat) : Datum → Option Phase
  | .table fields => (readFields? format fields).bind Parts.phase?
  | .list items => (readItems? format fieldNames items).bind Parts.phase?
  | _ => none

/-- Reads a list of phases. -/
def listOfData? (format : DataFormat) : List Datum → Option (List Phase)
  | [] => some []
  | item :: rest => do return (← ofDatum? format item) :: (← listOfData? format rest)

/-- Reads one field of a phase and adds it to what has been read. -/
def readField? (format : DataFormat) (parts : Parts) (name : String) (value : Datum) :
    Option Parts :=
  if name = "name" then value.text?.map fun name => { parts with name := some name }
  else if name = "phases" then
    match value with
    | .list items => (listOfData? format items).map fun phases => { parts with phases }
    | _ => none
  else if name = "links" then
    (value.list? (Link.ofDatum? format)).map fun links => { parts with links }
  else if name = "bindings" then
    (value.list? Datum.text?).map fun bindings => { parts with bindings }
  else if value.isReadable then some parts
  else none

/-- Reads the fields of a phase. -/
def readFields? (format : DataFormat) : List (String × Datum) → Option Parts
  | [] => some {}
  | (name, value) :: rest =>
    match readFields? format rest with
    | none => none
    | some parts => readField? format parts name value

/-- Reads the fields of a phase that are given in their order. -/
def readItems? (format : DataFormat) : List String → List Datum → Option Parts
  | _, [] => some {}
  | [], _ :: _ => if format = .toml then some {} else none
  | name :: names, value :: rest =>
    match readItems? format names rest with
    | none => none
    | some parts => readField? format parts name value

end

mutual

/-- A phase as data. -/
def toDatum : Phase → Datum
  | ⟨name, phases, links, bindings⟩ => .record [
      ("name", some (.text name)),
      ("phases", Datum.unlessEmpty (toData phases)),
      ("links", Datum.unlessEmpty (links.map Link.toDatum)),
      ("bindings", Datum.unlessEmpty (bindings.map .text))]

/-- Phases as data. -/
def toData : List Phase → List Datum
  | [] => []
  | phase :: rest => phase.toDatum :: toData rest

end

end Phase

/-- A node of a phase graph as data. -/
def Node.toDatum : Node → Datum
  | .point ref => .table [("point", .text ref.side.name), ("phase", .text ref.phase)]
  | .children phase => .table [("point", .text "child_aggregate"), ("phase", .text phase)]
  | .dependencies scope phase =>
    .table [
      ("point", .text "upstream_aggregate"),
      ("phase", .table [("scope", .text scope), ("phase", .text phase)])]

/-- A reference to a phase as data, together with the node that it leads to. -/
def PhaseRef.toDatum (ref : PhaseRef) : Datum :=
  let node := Node.point ref
  .table [
    ("point", .text ref.side.name),
    ("phase", .text ref.phase),
    ("display", .text ref.display),
    ("node", node.toDatum),
    ("node_display", .text node.display),
    ("node_phase", .text node.phase),
    ("aggregate", .bool node.isAggregate)]

/-- A node of a phase graph as data; other nodes are given by their positions. -/
def PhaseGraph.nodeDatum (g : PhaseGraph) (node : Node) : Datum :=
  let positions (nodes : List Node) : Datum := .list ((nodes.filterMap g.index?).map .nat)
  .table [
    ("key", node.toDatum),
    ("display", .text node.display),
    ("aggregate", .bool node.isAggregate),
    ("phase", .text node.phase),
    ("index", .orNull ((g.index? node).map .nat)),
    ("successors", positions (g.successors node)),
    ("predecessors", positions (g.predecessors node))]

/-- Reads an alias. -/
def Alias.ofDatum? (format : DataFormat) (d : Datum) : Option Alias := do
  let fields ← Fields.of? format ["legacy", "target"] d
  let legacy ← fields.required "legacy" Datum.text?
  let target ← fields.required "target" Datum.text?
  return { legacy, target }

/-- An alias as data. -/
def Alias.toDatum (a : Alias) : Datum :=
  .table [("legacy", .text a.legacy), ("target", .text a.target)]

namespace Lifecycle

/-- Reads a lifecycle. -/
def ofDatum? (format : DataFormat) (d : Datum) : Option Lifecycle := do
  let fields ← Fields.of? format ["id", "phases", "aliases"] d
  let id ← fields.required "id" Datum.text?
  let phases ← fields.required "phases" (Datum.list? (Phase.ofDatum? format))
  let aliases ← fields.withDefault "aliases" [] (Datum.list? (Alias.ofDatum? format))
  return { id, phases, aliases }

/-- A lifecycle as data. -/
def toDatum (l : Lifecycle) : Datum :=
  .record [
    ("id", some (.text l.id)),
    ("phases", some (.list (Phase.toData l.phases))),
    ("aliases", Datum.unlessEmpty (l.aliases.map Alias.toDatum))]

end Lifecycle

end PhasedBuild
