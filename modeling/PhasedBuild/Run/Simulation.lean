import PhasedBuild.Run.Executor
import PhasedBuild.Text.Characters
import PhasedBuild.Text.Split

/-!
# Simulated work

Steps are simulated when there is no plugin that could run them. Properties of a unit say which of
its goals fail.
-/

namespace PhasedBuild.Simulation

/-- The property that lists the goals that fail. -/
def failProperty : String := "simulate.fail"

/-- The property that lists the goals that fail for a reason behind another reason. -/
def deepFailProperty : String := "simulate.deep"

/-- The property of a state that names the last step that ran to its end. -/
def lastStepProperty : String := "last.step"

/-- Whether a property of a unit lists a name. The names stand between commas; blanks around them do
not count. -/
def lists (unit : BuildUnit) (property name : String) : Bool :=
  match Keyed.find? property unit.properties with
  | some names => (Text.splitOn ',' names).any (Text.trim · == name)
  | none => false

/-- Why a goal fails on a unit. -/
def failure? (unit : BuildUnit) (goal : String) : Option (List String) :=
  if lists unit failProperty goal then some ["Simulated failure of goal '" ++ goal ++ "'"] else none

/-- Why a goal fails on a unit, the reasons behind reasons being considered as well. -/
def chainedFailure? (unit : BuildUnit) (goal : String) : Option (List String) :=
  match failure? unit goal with
  | some reasons => some reasons
  | none =>
    if lists unit deepFailProperty goal then
      some ["outer context of '" ++ goal ++ "'", "inner cause"]
    else none

/-- Runs a step by noting it, unless there is a reason to fail. -/
def runner (failure? : BuildUnit → String → Option (List String)) : Runner :=
  fun _ call =>
    match failure? call.unit call.step.descriptor.goal with
    | some reasons => (.error reasons, call.state)
    | none =>
      (.ok (), { call.state with
        properties := Keyed.insert lastStepProperty call.step.display call.state.properties })

/-- Finds units of the build as artifacts, but none for some of the units. -/
def resolver (units : UnitGraph) (unreachable : List String) : Resolver :=
  fun history unit scopes =>
    if unreachable.contains unit.id then .error ["repository unreachable for '" ++ unit.id ++ "'"]
    else Resolver.ofGraph units history unit scopes

end PhasedBuild.Simulation
