import PhasedBuild.Proofs.Configuration.Places
import PhasedBuild.Step.Descriptor

/-!
# Configurations in layers

Configurations are laid over each other, the dominant one over those behind it.

* `ConfigNode.stack` is what they come to together. First children of a name are laid over each
  other like the layers that they are in (`ConfigNode.child?_mergeOptions`).
* `StepDescriptor.value_finalNode?`: the value that a parameter gets from a stack. All layers are
  asked for it under its name before any of them is asked under its other name.
-/

namespace PhasedBuild

namespace ConfigNode

/-! ### The first child of a name -/

/-- The child of a name is the first one of that name. -/
theorem child?_eq_nodeAt? (node : ConfigNode) (name : String) :
    node.child? name = nodeAt? node.children ⟨name, 0⟩ := by
  rw [child?, nodeAt?, ← List.head?_filter, List.head?_eq_getElem?]

/-- The first children of a name are laid over each other. -/
theorem child?_mergedOver (dominant recessive : ConfigNode) (name : String) :
    (dominant.mergedOver recessive).child? name =
      mergeOptions (dominant.child? name) (recessive.child? name) := by
  simp only [child?_eq_nodeAt?, children_mergedOver, nodeAt?_mergeChildren]

/-! ### Stacks -/

/-- Configurations laid over each other, the dominant one first. -/
def stack : List ConfigNode → Option ConfigNode
  | [] => none
  | layer :: rest => mergeOptions (some layer) (stack rest)

/-- The value of the first child of a name. -/
def valueOf? (node : ConfigNode) (name : String) : Option String :=
  (node.child? name).bind (·.value)

section stack

variable (dominant recessive : Option ConfigNode) (layers : List ConfigNode) (name : String)

/-- The child of what is merged is the children merged. -/
theorem child?_mergeOptions : (mergeOptions dominant recessive).bind (·.child? name) =
    mergeOptions (dominant.bind (·.child? name)) (recessive.bind (·.child? name)) := by
  cases dominant with
  | none => rfl
  | some dominant =>
    cases recessive with
    | none => cases h : dominant.child? name <;> simp [mergeOptions, overOption, h]
    | some recessive => exact child?_mergedOver dominant recessive name

/-- The dominant child's value counts, or else that of the recessive child. -/
theorem valueOf?_mergeOptions : (mergeOptions dominant recessive).bind (·.valueOf? name) =
    (dominant.bind (·.valueOf? name)).or (recessive.bind (·.valueOf? name)) := by
  simp only [valueOf?, ← Option.bind_assoc]
  rw [child?_mergeOptions, value_mergeOptions]

/-- A configuration that may be missing, over a stack. -/
theorem stack_toList_append :
    stack (dominant.toList ++ layers) = mergeOptions dominant (stack layers) := by
  cases dominant <;> rfl

/-- A stack has under a name what the first layer that has a value there has. -/
theorem valueOf?_stack :
    (stack layers).bind (·.valueOf? name) = layers.findSome? (·.valueOf? name) := by
  induction layers with
  | nil => rfl
  | cons layer rest ih =>
    rw [stack, valueOf?_mergeOptions, ih, List.findSome?_cons]
    cases h : layer.valueOf? name <;> simp [h]

/-- A stack has a child of a name if one of its layers has. -/
theorem isSome_child?_stack : ((stack layers).bind (·.child? name)).isSome =
    layers.any fun layer => (layer.child? name).isSome := by
  induction layers with
  | nil => rfl
  | cons layer rest ih =>
    rw [stack, child?_mergeOptions, isSome_mergeOptions, ih]
    rfl

end stack

end ConfigNode

/-! ### The value of a parameter -/

/-- The value that layers give a parameter, the dominant layer first: under its name, or if none of
them has a child of that name under its other name. -/
def Parameter.valueIn? (p : Parameter) (layers : List ConfigNode) : Option String :=
  if layers.any fun layer => (layer.child? p.name).isSome then
    layers.findSome? (·.valueOf? p.name)
  else p.otherName.bind fun other => layers.findSome? (·.valueOf? other)

/-- The value that a descriptor gives a parameter for which nothing has been declared. -/
def StepDescriptor.defaultValueOf? (d : StepDescriptor) (p : Parameter) : Option String :=
  d.defaultConfiguration.valueOf? p.name

/-- The value that is declared for a parameter in a stack is the one that its layers give it. -/
theorem Parameter.value_declaredNode? (p : Parameter) (layers : List ConfigNode) :
    ((ConfigNode.stack layers).bind p.declaredNode?).bind (·.value) = p.valueIn? layers := by
  have hvalue (name : String) := ConfigNode.valueOf?_stack layers name
  have hany := ConfigNode.isSome_child?_stack layers p.name
  rw [valueIn?, ← hany, ← hvalue]
  simp only [← hvalue]
  cases ConfigNode.stack layers with
  | none => cases p.otherName <;> rfl
  | some node =>
    show (p.declaredNode? node).bind (·.value) =
      if (node.child? p.name).isSome then node.valueOf? p.name else p.otherName.bind node.valueOf?
    rw [declaredNode?, ConfigNode.valueOf?]
    cases node.child? p.name with
    | some child => rfl
    | none => cases p.otherName <;> rfl

/-- The final value of a parameter: what the layers give it, or else its default. -/
theorem StepDescriptor.value_finalNode? (d : StepDescriptor) (p : Parameter)
    (layers : List ConfigNode) :
    (d.finalNode? (ConfigNode.stack layers) p).bind (·.value) =
      (p.valueIn? layers).or (d.defaultValueOf? p) := by
  rw [finalNode?, ← Parameter.value_declaredNode?, defaultValueOf?, ConfigNode.valueOf?,
    ← ConfigNode.value_mergeOptions]
  cases ConfigNode.mergeOptions ((ConfigNode.stack layers).bind p.declaredNode?)
      (d.defaultConfiguration.child? p.name) with
  | none => rfl
  | some node =>
    dsimp only [Option.map_some, Option.bind_some]
    split <;> rfl

end PhasedBuild
