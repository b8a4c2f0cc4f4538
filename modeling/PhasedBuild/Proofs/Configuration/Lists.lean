import PhasedBuild.Proofs.Configuration
import PhasedBuild.Proofs.Keyed

/-!
# Lists in configurations

A list in the table of a configuration is read as repeated children, one for each item. What a step
runs with is settled parameter by parameter, and a parameter takes the first child of its name.

* `ConfigNode.children_addFields`: the children that the fields of a table stand for.
* `ConfigNode.filter_children_addFields`: those of one name are the items under it, in their order.
* `StepDescriptor.filter_children_finalConfiguration`: what a step runs with has one node of a name
  for each parameter.
* `StepDescriptor.final_node_is_of_first_item`: that node is made from the first item.
* `StepDescriptor.later_items_are_lost`: so there need not be a node for each item.
-/

namespace PhasedBuild

namespace ConfigNode

/-! ### Reading -/

section reading

variable {key : String} {value : Datum} {node : ConfigNode} {table : List (String × Datum)}

/-- A list of items is read into one child for each. -/
theorem repeated_eq_map (name : String) (items : List Datum) :
    repeated name items = items.map (ofValue name) := by
  induction items with
  | nil => rfl
  | cons item rest ih => exact congrArg (ofValue name item :: ·) ih

/-- The items of a list; any other datum is its only item. -/
def itemsOf : Datum → List Datum
  | .list items => items
  | other => [other]

/-- The children that a field stands for: one for each item, or none if it is an attribute. -/
def fieldChildren (key : String) (value : Datum) : List ConfigNode :=
  match Text.after? "@" key with
  | some _ => []
  | none => (itemsOf value).map (ofValue key)

/-- A field that is an attribute has no children. -/
theorem fieldChildren_of_attribute {bare : String} (hkey : Text.after? "@" key = some bare)
    (value : Datum) : fieldChildren key value = [] := by
  rw [fieldChildren, hkey]

/-- Any other field has one child for each of its items. -/
theorem fieldChildren_of_none (hkey : Text.after? "@" key = none) (value : Datum) :
    fieldChildren key value = (itemsOf value).map (ofValue key) := by
  rw [fieldChildren, hkey]

/-- A field adds an attribute or children. -/
theorem addFields_cons (node : ConfigNode) (key : String) (value : Datum)
    (rest : List (String × Datum)) :
    addFields node ((key, value) :: rest) =
      match Text.after? "@" key with
      | some bare =>
        let attributes := Keyed.insert bare (scalarText value) node.attributes
        addFields { node with attributes } rest
      | none =>
        addFields { node with children := node.children ++ (itemsOf value).map (ofValue key) }
          rest := by
  cases value with
  | list items =>
    rw [itemsOf, ← repeated_eq_map]
    rfl
  | _ => rfl

/-- The children of a table are those of its fields, in their order. -/
theorem children_addFields (node : ConfigNode) (table : List (String × Datum)) :
    (addFields node table).children =
      node.children ++ table.flatMap fun field => fieldChildren field.1 field.2 := by
  induction table generalizing node with
  | nil => exact (List.append_nil _).symm
  | cons field rest ih =>
    obtain ⟨key, value⟩ := field
    rw [addFields_cons, List.flatMap_cons]
    split
    next hkey => rw [ih, fieldChildren_of_attribute hkey, List.nil_append]
    next hkey => rw [ih, fieldChildren_of_none hkey, List.append_assoc]

/-- Reading a table into a node does not change its name. -/
theorem name_addFields (node : ConfigNode) (table : List (String × Datum)) :
    (addFields node table).name = node.name := by
  induction table generalizing node with
  | nil => rfl
  | cons field rest ih =>
    obtain ⟨key, value⟩ := field
    rw [addFields_cons]
    split
    next => exact ih _
    next => exact ih _

/-- What is read from a datum has the name under which it stands. -/
theorem name_ofValue (name : String) (value : Datum) : (ofValue name value).name = name := by
  cases value with
  | table fields => exact name_addFields { name } fields
  | _ => rfl

/-- All children of a field are named after it. -/
theorem name_of_mem_fieldChildren (h : node ∈ fieldChildren key value) : node.name = key := by
  cases hkey : Text.after? "@" key with
  | some bare =>
    rw [fieldChildren_of_attribute hkey] at h
    cases h
  | none =>
    rw [fieldChildren_of_none hkey] at h
    obtain ⟨item, -, rfl⟩ := List.mem_map.1 h
    exact name_ofValue _ _

/-- All children of a field count for its own key. -/
theorem filter_fieldChildren_self (key : String) (value : Datum) :
    (fieldChildren key value).filter (·.name == key) = fieldChildren key value :=
  List.filter_eq_self.2 fun _ h => by simp [name_of_mem_fieldChildren h]

/-- The children of other fields do not. -/
theorem filter_fieldChildren_of_ne {other : String} (h : other ≠ key) (value : Datum) :
    (fieldChildren other value).filter (·.name == key) = [] :=
  List.filter_eq_nil_iff.2 fun _ hmem => by simpa [name_of_mem_fieldChildren hmem] using h

/-- The fields of a table that has been read are in the order of their keys. -/
theorem isSorted_fieldValues? {format : DataFormat} {fields : List (String × Datum)}
    (h : fieldValues? format fields = some table) : Keyed.IsSorted table := by
  induction fields generalizing table with
  | nil =>
    rw [fieldValues?] at h
    obtain rfl := Option.some.inj h
    exact .nil
  | cons field rest ih =>
    rw [fieldValues?] at h
    split at h
    next value others _ hothers =>
      obtain rfl := Option.some.inj h
      exact (ih hothers).insert _ _
    next => cases h

/-- The children of a name are those of the field under it. -/
theorem filter_flatMap_fieldChildren (hsorted : Keyed.IsSorted table)
    (hfind : Keyed.find? key table = some value) :
    (table.flatMap fun field => fieldChildren field.1 field.2).filter (·.name == key) =
      fieldChildren key value := by
  induction table with
  | nil => cases hfind
  | cons field rest ih =>
    obtain ⟨other, held⟩ := field
    obtain ⟨hfirst, hsorted⟩ := List.pairwise_cons.1 hsorted
    rw [List.flatMap_cons, List.filter_append]
    rw [Keyed.find?] at hfind
    split at hfind
    next heq =>
      obtain rfl := Option.some.inj hfind
      subst heq
      have hrest : (rest.flatMap fun field => fieldChildren field.1 field.2).filter
          (·.name == other) = [] := by
        refine List.filter_eq_nil_iff.2 fun node hnode => ?_
        obtain ⟨⟨later, value⟩, hlater, hnode⟩ := List.mem_flatMap.1 hnode
        have hne : later ≠ other := ne_of_gt (hfirst _ hlater)
        simpa [name_of_mem_fieldChildren hnode] using hne
      rw [filter_fieldChildren_self, hrest, List.append_nil]
    next hne => rw [filter_fieldChildren_of_ne hne, List.nil_append, ih hsorted hfind]

/-- Reading loses nothing: under the key of a list there is a child for each item, in order. -/
theorem filter_children_addFields (hsorted : Keyed.IsSorted table)
    (hkey : Text.after? "@" key = none) {items : List Datum}
    (hfind : Keyed.find? key table = some (.list items)) (name : String) :
    (addFields { name } table).children.filter (·.name == key) = items.map (ofValue key) := by
  rw [children_addFields, List.nil_append, filter_flatMap_fieldChildren hsorted hfind,
    fieldChildren_of_none hkey]
  rfl

/-- The first child of a key is read from the first item of its list. -/
theorem child?_addFields (hsorted : Keyed.IsSorted table) (hkey : Text.after? "@" key = none)
    {items : List Datum} (hfind : Keyed.find? key table = some (.list items)) (name : String) :
    (addFields { name } table).child? key = items.head?.map (ofValue key) := by
  rw [child?, ← List.head?_filter, filter_children_addFields hsorted hkey hfind, List.head?_map]

/-- A key that the table does not have has no child. -/
theorem child?_addFields_eq_none (h : Keyed.find? key table = none) (name : String) :
    (addFields { name } table).child? key = none := by
  refine List.find?_eq_none.2 fun node hnode hname => ?_
  rw [children_addFields, List.nil_append] at hnode
  obtain ⟨field, hfield, hnode⟩ := List.mem_flatMap.1 hnode
  have hkey : field.1 = key := by simpa [name_of_mem_fieldChildren hnode] using hname
  obtain ⟨value, hvalue⟩ := Keyed.exists_find?_of_mem_keys (List.mem_map_of_mem hfield)
  rw [hkey, h] at hvalue
  cases hvalue

end reading

end ConfigNode

/-! ### Settling -/

/-- The final form of a node of a parameter: it takes the parameter's name and the type that the
parameter is turned into. -/
def Parameter.completed (p : Parameter) (node : ConfigNode) : ConfigNode :=
  match p.implementation with
  | some implementation =>
    (node.renamed p.name).fillAttribute ConfigNode.implementationKey implementation
  | none => node.renamed p.name

@[simp] theorem Parameter.name_completed (p : Parameter) (node : ConfigNode) :
    (p.completed node).name = p.name := by
  unfold completed
  split <;> rfl

namespace StepDescriptor

/-- The final node of a parameter is what has been declared for it, laid over its default. -/
theorem finalNode?_eq (d : StepDescriptor) (declared : Option ConfigNode) (p : Parameter) :
    d.finalNode? declared p = (ConfigNode.mergeOptions (declared.bind p.declaredNode?)
      (d.defaultConfiguration.child? p.name)).map p.completed :=
  rfl

/-- What a step runs with has the final nodes of the parameters of a name under that name. -/
theorem filter_children_finalConfiguration (d : StepDescriptor) (declared : Option ConfigNode)
    (name : String) :
    (d.finalConfiguration declared).children.filter (·.name == name) =
      (d.parameters.filter (·.name == name)).filterMap (d.finalNode? declared) := by
  rw [finalConfiguration, List.filter_filterMap, List.filterMap_filter]
  refine List.filterMap_congr fun p _ => ?_
  rw [finalNode?_eq]
  cases ConfigNode.mergeOptions (declared.bind p.declaredNode?)
    (d.defaultConfiguration.child? p.name) with
  | none => simp
  | some node => simp [Option.filter]

end StepDescriptor

/-! ### Two sources -/

namespace Including

/-- What is compiled. -/
def parameter : Parameter where
  name := "includes"

/-- The goal that compiles. -/
def descriptor : StepDescriptor where
  plugin := { group := "org.acme", artifact := "acme-plugin" }
  goal := "compile"
  parameters := [parameter]

/-- Both the sources and the tests are to be compiled. -/
def table : List (String × Datum) :=
  [("includes", .list [.text "main", .text "test"])]

/-- The configuration that the table is read into. -/
def configuration : ConfigNode where
  name := ConfigNode.rootName
  children := [{ name := "includes", value := some "main" },
    { name := "includes", value := some "test" }]

/-- The table is read into the configuration. -/
theorem ofTable?_table : ConfigNode.ofTable? .toml (.table table) = some configuration :=
  rfl

end Including

namespace StepDescriptor

/-- A parameter that has a list in a table, under its name or else under its other name. The table
is read into one child for each item, in order. The final node of the parameter is that of the first
item over the default, and there is no other one for it, whatever items follow. -/
theorem final_node_is_of_first_item (d : StepDescriptor) (format : DataFormat)
    (fields table : List (String × Datum)) (parameter : Parameter) (key : String) (first : Datum)
    (rest : List Datum) (htable : ConfigNode.fieldValues? format fields = some table)
    (hkey : Text.after? "@" key = none)
    (hitems : Keyed.find? key table = some (.list (first :: rest)))
    (hname : parameter.name = key ∨
      parameter.otherName = some key ∧ Keyed.find? parameter.name table = none) :
    ∃ config node, ConfigNode.ofTable? format (.table fields) = some config ∧
      config.children.filter (·.name == key) = (first :: rest).map (ConfigNode.ofValue key) ∧
      node = parameter.completed
        ((ConfigNode.ofValue key first).overOption (d.defaultConfiguration.child? parameter.name)) ∧
      d.finalNode? (some config) parameter = some node ∧
      (d.finalConfiguration (some config)).children.filter (·.name == parameter.name) =
        (d.parameters.filter (·.name == parameter.name)).filterMap (d.finalNode? (some config)) ∧
      (d.parameters.filter (·.name == parameter.name) = [parameter] →
        (d.finalConfiguration (some config)).children.filter (·.name == parameter.name) =
          [node]) := by
  have hsorted := ConfigNode.isSorted_fieldValues? htable
  have hchild := ConfigNode.child?_addFields hsorted hkey hitems ConfigNode.rootName
  let config := ConfigNode.addFields { name := ConfigNode.rootName } table
  have hdeclared : parameter.declaredNode? config = some (ConfigNode.ofValue key first) := by
    rcases hname with rfl | ⟨hother, hnone⟩
    · rw [Parameter.declaredNode?, hchild]
      rfl
    · rw [Parameter.declaredNode?, ConfigNode.child?_addFields_eq_none hnone, hother]
      exact hchild
  have hfinal : d.finalNode? (some config) parameter = some (parameter.completed
      ((ConfigNode.ofValue key first).overOption
        (d.defaultConfiguration.child? parameter.name))) := by
    rw [finalNode?_eq, Option.bind_some, hdeclared]
    rfl
  refine ⟨config, _, ?_, ConfigNode.filter_children_addFields hsorted hkey hitems _, rfl, hfinal,
    d.filter_children_finalConfiguration _ _, fun hunique => ?_⟩
  · rw [ConfigNode.ofTable?, htable]
    rfl
  · rw [filter_children_finalConfiguration, hunique, List.filterMap_cons_some hfinal,
      List.filterMap_nil]

/-- So it is with two sources. -/
theorem final_node_is_of_main :
    ConfigNode.fieldValues? .toml Including.table = some Including.table ∧
    Text.after? "@" "includes" = none ∧
    Keyed.find? "includes" Including.table = some (.list [.text "main", .text "test"]) ∧
    Including.descriptor.finalNode? (some Including.configuration) Including.parameter =
      some { name := "includes", value := some "main" } := by
  refine ⟨rfl, by decide, rfl, ?_⟩
  obtain ⟨config, node, hconfig, -, rfl, hnode, -⟩ := final_node_is_of_first_item
    Including.descriptor .toml Including.table Including.table Including.parameter "includes"
    (.text "main") [.text "test"] rfl (by decide) rfl (.inl rfl)
  obtain rfl := Option.some.inj (Including.ofTable?_table.symm.trans hconfig)
  exact hnode

/-- There may be fewer nodes for a parameter than items in its list: of two sources only the first
one is left. -/
theorem later_items_are_lost : ¬ ∀ (d : StepDescriptor) (format : DataFormat)
    (fields table : List (String × Datum)) (parameter : Parameter) (items : List Datum),
    ConfigNode.fieldValues? format fields = some table → parameter ∈ d.parameters →
    Text.after? "@" parameter.name = none →
    Keyed.find? parameter.name table = some (.list items) →
    ∃ config, ConfigNode.ofTable? format (.table fields) = some config ∧
      items.length ≤
        ((d.finalConfiguration (some config)).children.filter
          (·.name == parameter.name)).length := by
  intro h
  obtain ⟨config, hconfig, hlength⟩ := h Including.descriptor .toml Including.table Including.table
    Including.parameter [.text "main", .text "test"] rfl List.mem_cons_self (by decide) rfl
  obtain rfl := Option.some.inj (Including.ofTable?_table.symm.trans hconfig)
  revert hlength
  decide

end StepDescriptor

end PhasedBuild
