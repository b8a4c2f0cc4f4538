import PhasedBuild.Keyed
import PhasedBuild.Lifecycle.Standard
import PhasedBuild.Step.Binding

/-!
# Packagings

The packaging of a unit says what the build of the unit produces. Each packaging has its own
bindings for the phases of the `default` lifecycle.
-/

namespace PhasedBuild

/-- The known packagings: for each of them the written bindings of its phases. -/
structure Packagings where
  entries : List (String × List (String × List String)) := []
deriving Repr, Inhabited

namespace Packagings

/-- Gives a packaging its bindings, in the place of those it had. -/
def register (p : Packagings) (packaging : String) (phases : List (String × List String)) :
    Packagings :=
  ⟨Keyed.insert packaging (Keyed.ofList phases) p.entries⟩

/-- Registers packagings one after the other. -/
def registerAll (p : Packagings) (packagings : List (String × List (String × List String))) :
    Packagings :=
  packagings.foldl (fun p entry => p.register entry.1 entry.2) p

/-- Whether a packaging is known. -/
def contains (p : Packagings) (packaging : String) : Bool :=
  Keyed.contains packaging p.entries

/-- The bindings of a packaging, phase by phase, and the messages about those that cannot be
read. -/
def bindings (p : Packagings) (packaging : String) :
    Except BuildError (List StepBinding × List String) :=
  match Keyed.find? packaging p.entries with
  | none => .error (Fault.unknownPackaging packaging)
  | some phases =>
    let read := phases.map fun (phase, specs) => StepBinding.ofSpecs phase specs
    .ok (read.flatMap (·.1), read.flatMap (·.2))

end Packagings

/-- The packagings that are always known. -/
def Standard.knownPackagings : Packagings :=
  Packagings.registerAll {} Standard.packagings

end PhasedBuild
