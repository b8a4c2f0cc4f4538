/-!
# Dependency scopes

* `Scope` says what a dependency between units is for.
* `ResolutionScope.scopes` is the set of scopes whose artifacts a step asks for.
* `Scope.effective?` is the scope of a dependency that is reached through another one.
-/

namespace PhasedBuild

/-- What a dependency between units is for. -/
inductive Scope where
  | compile
  | provided
  | runtime
  | system
  | test
deriving Repr, Inhabited, DecidableEq

namespace Scope

/-- All scopes in their order. -/
def all : List Scope :=
  [.compile, .provided, .runtime, .system, .test]

/-- The name of a scope. -/
def name : Scope → String
  | .compile => "compile"
  | .provided => "provided"
  | .runtime => "runtime"
  | .system => "system"
  | .test => "test"

/-- The scope of a name, which must be written exactly. -/
def ofName? (s : String) : Option Scope :=
  all.find? (·.name == s)

/-- What is said about a text that names no scope. -/
def invalidMessage (s : String) : String :=
  "Invalid scope '" ++ s ++ "'. Valid values: compile, provided, runtime, system, test"

/-- The scope of a dependency declared with `declared` that is reached through a dependency of scope
`inherited`; without the latter it is a direct one. There is none if the dependency is not
transitive. -/
def effective? (declared inherited : Option Scope) : Option Scope :=
  let declared := declared.getD .compile
  match inherited with
  | none => some declared
  | some inherited =>
    match declared, inherited with
    | .test, _ => none
    | .provided, _ => none
    | .system, _ => some .system
    | .compile, .compile => some .compile
    | _, .test => some .test
    | _, .provided => some .provided
    | _, _ => some .runtime

end Scope

/-- A set of scopes. -/
structure ScopeSet where
  contains : Scope → Bool

namespace ScopeSet

/-- The set without scopes. -/
def empty : ScopeSet := ⟨fun _ => false⟩

/-- The set of the scopes in a list. -/
def ofList (scopes : List Scope) : ScopeSet := ⟨fun s => scopes.contains s⟩

/-- The scopes of a set in their order. -/
def toList (set : ScopeSet) : List Scope := Scope.all.filter set.contains

/-- The scopes of either set. -/
def union (a b : ScopeSet) : ScopeSet := ⟨fun s => a.contains s || b.contains s⟩

/-- Whether a set has no scopes. -/
def isEmpty (set : ScopeSet) : Bool := set.toList.isEmpty

/-- Whether all scopes of one set are in another. -/
def subset (a b : ScopeSet) : Bool := Scope.all.all fun s => !a.contains s || b.contains s

instance : Union ScopeSet := ⟨union⟩

@[simp] theorem contains_union (a b : ScopeSet) (s : Scope) :
    (a ∪ b).contains s = (a.contains s || b.contains s) := rfl

/-- The list of a set has its scopes. -/
theorem mem_toList {set : ScopeSet} {s : Scope} : s ∈ set.toList ↔ set.contains s = true := by
  simp only [toList, List.mem_filter, and_iff_right_iff_imp]
  intro _
  cases s <;> simp [Scope.all]

end ScopeSet

/-- The artifacts that a step asks for. -/
inductive ResolutionScope where
  | compile
  | runtime
  | compileRuntime
  | runtimeSystem
  | test
deriving Repr, Inhabited, DecidableEq

namespace ResolutionScope

/-- All of them. -/
def all : List ResolutionScope :=
  [.compile, .runtime, .compileRuntime, .runtimeSystem, .test]

/-- The written form. -/
def name : ResolutionScope → String
  | .compile => "compile"
  | .runtime => "runtime"
  | .compileRuntime => "compile+runtime"
  | .runtimeSystem => "runtime+system"
  | .test => "test"

/-- Reads the written form. -/
def ofName? (s : String) : Option ResolutionScope :=
  all.find? (·.name == s)

/-- The scopes that are covered. -/
def scopes : ResolutionScope → ScopeSet
  | .compile => .ofList [.compile, .provided, .system]
  | .runtime => .ofList [.compile, .runtime]
  | .compileRuntime => .ofList [.compile, .provided, .runtime, .system]
  | .runtimeSystem => .ofList [.compile, .runtime, .system]
  | .test => .ofList Scope.all

end ResolutionScope

end PhasedBuild
