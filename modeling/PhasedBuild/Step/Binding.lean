import PhasedBuild.Error.Record
import PhasedBuild.Step.Descriptor
import PhasedBuild.Text.Characters

/-!
# Bindings of steps to phases

A binding names a goal of a plugin and the phase in which a step runs it.

* `StepBinding.parse?` reads `group:artifact:goal` and `group:artifact:version:goal`.
* `StepBinding.ofSpecs` reads the bindings of a phase; those that cannot be read are reported and
  passed over.
-/

namespace PhasedBuild

/-- A step that is bound to a phase. -/
structure StepBinding where
  plugin : Coordinate
  goal : String
  phase : Option String := none
  /-- Of the steps at one execution point those of lower priority come first. -/
  priority : Int := 0
  executionId : String := "default-" ++ goal
  configuration : Option ConfigNode := none
deriving Repr, Inhabited, BEq

namespace StepBinding

/-- Reads a plugin and a goal. Blanks around the whole are allowed; no part may be empty. -/
def parse? (spec : String) : Option (Coordinate × String) :=
  let parts := Text.splitOn ':' (Text.trim spec)
  if parts.any (·.isEmpty) then none
  else match parts with
    | [group, artifact, goal] => some ({ group, artifact }, goal)
    | [group, artifact, version, goal] => some ({ group, artifact, version := some version }, goal)
    | _ => none

/-- Reads a plugin and a goal, or names the text that is neither. -/
def parse (spec : String) : Except Fault (Coordinate × String) :=
  match parse? spec with
  | some binding => .ok binding
  | none => .error (.invalidBinding spec)

/-- The bindings of a phase and the messages about those that cannot be read. -/
def ofSpecs (phase : String) (specs : List String) : List StepBinding × List String :=
  (specs.filterMap fun spec => (parse? spec).map fun (plugin, goal) =>
      { plugin, goal, phase := some phase },
    specs.filterMap fun spec =>
      if (parse? spec).isSome then none else some (Fault.invalidBinding spec).message)

end StepBinding

end PhasedBuild
