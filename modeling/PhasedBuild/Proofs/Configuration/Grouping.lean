import PhasedBuild.Proofs.Configuration

/-!
# Layers in any grouping

Configurations may be laid over each other two at a time in any grouping: only their order counts.

The proof goes by induction on the lowest tree, place by place. A place of the lowest children is
kept if neither of the others has it, however they are grouped, and what is at a place is grouped
like the trees.

* `ConfigNode.mergedOver_assoc`: three configurations may be grouped in either way.
* `ConfigNode.mergedOver_self`: a configuration over itself changes nothing.
* `ConfigNode.Grouping.stack_layers`: every grouping of layers comes to their stack.
-/

namespace PhasedBuild.ConfigNode

/-! ### Equal trees -/

/-- What holds of each node of whose children it holds, holds of all nodes. -/
theorem induction_on_children {p : ConfigNode → Prop}
    (h : ∀ node : ConfigNode, (∀ child ∈ node.children, p child) → p node) (node : ConfigNode) :
    p node :=
  h node fun child _ => induction_on_children h child
termination_by sizeOf node
decreasing_by
  have hlt := List.sizeOf_lt_of_mem ‹child ∈ node.children›
  cases node
  simp only [mk.sizeOf_spec] at hlt ⊢
  omega

/-- Nodes are equal if their parts are, where children are compared place by place. -/
theorem eq_of_parts {a b : ConfigNode} (hname : a.name = b.name) (hvalue : a.value = b.value)
    (hattributes : a.attributes = b.attributes) (hplaces : places a.children = places b.children)
    (hnodes : ∀ place, nodeAt? a.children place = nodeAt? b.children place) : a = b := by
  have hchildren := eq_of_places hplaces hnodes
  cases a
  cases b
  simp_all

/-! ### Two and three layers -/

/-- The lowest of three configurations that may be missing decides whether they may be grouped in
either way. -/
theorem mergeOptions_assoc_of {lowest : Option ConfigNode}
    (h : ∀ c ∈ lowest, ∀ a b : ConfigNode,
      (a.mergedOver b).mergedOver c = a.mergedOver (b.mergedOver c)) (a b : Option ConfigNode) :
    mergeOptions (mergeOptions a b) lowest = mergeOptions a (mergeOptions b lowest) := by
  cases a with
  | none => rfl
  | some a =>
    cases b with
    | none => rfl
    | some b =>
      cases lowest with
      | none => rfl
      | some c => exact congrArg some (h c rfl a b)

/-- It does not matter which two of three configurations are merged first. -/
theorem mergedOver_assoc (a b c : ConfigNode) :
    (a.mergedOver b).mergedOver c = a.mergedOver (b.mergedOver c) := by
  induction c using induction_on_children generalizing a b with
  | h c ih =>
    refine eq_of_parts ?_ ?_ ?_ ?_ fun place => ?_
    · simp
    · simp [Option.or_assoc]
    · simp [Keyed.fillFrom_assoc]
    · have hfilter : ∀ place ∈ places c.children,
          (decide (place ∉ places a.children ++
            (places b.children).filter (· ∉ places a.children)) : Bool) =
          (decide (place ∉ places a.children) && decide (place ∉ places b.children)) := by
        intro place _
        by_cases ha : place ∈ places a.children <;> simp [ha]
      simp only [children_mergedOver, places_mergeChildren, List.filter_append,
        List.filter_filter, List.append_assoc]
      rw [List.filter_congr hfilter]
    · simp only [children_mergedOver, nodeAt?_mergeChildren]
      exact mergeOptions_assoc_of (fun lowest hlowest a b =>
        ih lowest (mem_of_nodeAt? hlowest) a b) _ _

/-- A configuration merged over itself is itself. -/
theorem mergedOver_self (node : ConfigNode) : node.mergedOver node = node := by
  induction node using induction_on_children with
  | h node ih =>
    refine eq_of_parts ?_ ?_ ?_ ?_ fun place => ?_
    · simp
    · simp
    · simp [Keyed.fillFrom_self]
    · simp [places_mergeChildren]
    · rw [children_mergedOver, nodeAt?_mergeChildren]
      cases hchild : nodeAt? node.children place with
      | none => rfl
      | some child => exact congrArg some (ih child (mem_of_nodeAt? hchild))

/-! ### Any number of layers -/

/-- So it is with configurations that may be missing. -/
theorem mergeOptions_assoc (a b c : Option ConfigNode) :
    mergeOptions (mergeOptions a b) c = mergeOptions a (mergeOptions b c) :=
  mergeOptions_assoc_of (fun c _ a b => mergedOver_assoc a b c) a b

/-- A stack may be parted anywhere. -/
theorem stack_append (upper lower : List ConfigNode) :
    stack (upper ++ lower) = mergeOptions (stack upper) (stack lower) := by
  induction upper with
  | nil => rfl
  | cons layer rest ih => rw [List.cons_append, stack, ih, ← mergeOptions_assoc, stack]

/-- A way to lay configurations over each other, two at a time. -/
inductive Grouping where
  | layer (node : ConfigNode)
  | merge (dominant recessive : Grouping)

namespace Grouping

/-- The configurations that are laid over each other, the dominant one first. -/
def layers : Grouping → List ConfigNode
  | layer node => [node]
  | merge dominant recessive => dominant.layers ++ recessive.layers

/-- What they come to in this grouping. -/
def merged : Grouping → ConfigNode
  | layer node => node
  | merge dominant recessive => dominant.merged.mergedOver recessive.merged

/-- In whatever grouping configurations are laid over each other, they come to the same. -/
theorem stack_layers (grouping : Grouping) : stack grouping.layers = some grouping.merged := by
  induction grouping with
  | layer node => rfl
  | merge dominant recessive ihdominant ihrecessive =>
    rw [layers, stack_append, ihdominant, ihrecessive]
    rfl

end Grouping

end PhasedBuild.ConfigNode
