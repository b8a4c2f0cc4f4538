import PhasedBuild.Keyed
import PhasedBuild.Plan.Execution
import PhasedBuild.Units.Graph

/-!
# The artifacts that steps need

A list of executions shares one set of resolved dependencies. The first step that needs any scope
resolves what all steps of the list need; later ones resolve again only when they need more. An
aggregating step also needs the dependencies of all other units.

* `Dependencies.ensure` resolves what a step needs and is not there yet.
-/

namespace PhasedBuild

/-- A request to a resolver. -/
structure ResolveRequest where
  unit : String
  scopes : List Scope
deriving Repr, Inhabited, DecidableEq

/-- Finds the artifacts of the dependencies of a unit in some scopes, or says why it cannot:
reasons, the outermost first. The answer may depend on the requests that a lane has made before. -/
abbrev Resolver := List ResolveRequest → BuildUnit → ScopeSet → Except (List String) (List String)

/-- The resolver of a build as each of its lanes meets it. Two lanes need not be answered alike, for
what a lane is told may also depend on what other lanes have asked for in the meantime. -/
structure SharedResolver where
  forLane : Nat → Resolver

/-- A resolver that answers all lanes alike. -/
instance : Coe Resolver SharedResolver where
  coe resolver := { forLane := fun _ => resolver }

namespace Resolver

/-- Finds no artifacts. -/
def none : Resolver :=
  fun _ _ _ => .ok []

/-- Finds the units of a build that dependencies lead to. -/
def ofGraph (units : UnitGraph) : Resolver :=
  fun _ unit scopes =>
    if units.contains unit.id then .ok ((units.dependenciesInScope unit.id scopes).map (·.id))
    else .error [(Fault.unitOutsideBuild unit.id).message]

end Resolver

/-- What has been resolved for the executions of a list. -/
structure Dependencies where
  unit : String
  /-- The scopes that the executions of the list need. -/
  pending : ScopeSet
  /-- The scopes that have been resolved for the unit. -/
  resolved : Option ScopeSet := none
  artifacts : List String := []
  /-- The scopes that have been resolved for all other units. -/
  aggregated : ScopeSet := .empty
  /-- The artifacts of other units, by unit. -/
  aggregatedArtifacts : List (String × List String) := []
  /-- How often something has been resolved. -/
  resolutions : Nat := 0

namespace Dependencies

/-- What a list of executions on a unit starts with. -/
def ofExecutions (unit : String) (executions : List Execution) : Dependencies where
  unit := unit
  pending := executions.foldl (fun scopes e => scopes ∪ e.step.requiredScopes) .empty

/-- Whether scopes must be resolved for the unit. -/
def needsResolution (d : Dependencies) (scopes : ScopeSet) : Bool :=
  match d.resolved with
  | none => !scopes.isEmpty
  | some resolved => !scopes.subset resolved

/-- Whether scopes must be resolved for the other units when a step works on all of them. -/
def needsAggregateResolution (d : Dependencies) (scopes : ScopeSet) : Bool :=
  !scopes.isEmpty && !scopes.subset d.aggregated

/-- The result of a resolution together with the requests that it made. -/
structure Ensured where
  result : Except (List String) Unit
  dependencies : Dependencies
  requests : List ResolveRequest

/-- Resolves scopes for the unit itself: those that are resolved already, those that the list needs
and those that the step needs. -/
def resolveUnit (d : Dependencies) (resolver : Resolver) (history : List ResolveRequest)
    (unit : BuildUnit) (required : ScopeSet) : Ensured :=
  if d.needsResolution required then
    let scopes := d.resolved.getD .empty ∪ d.pending ∪ required
    let request : ResolveRequest := ⟨unit.id, scopes.toList⟩
    match resolver history unit scopes with
    | .error reasons => ⟨.error reasons, d, [request]⟩
    | .ok artifacts =>
      ⟨.ok (), { d with artifacts, resolved := some scopes, resolutions := d.resolutions + 1 },
        [request]⟩
  else ⟨.ok (), d, []⟩

/-- Resolves scopes for other units, one after the other. -/
def resolveOthers (resolver : Resolver) (required : ScopeSet) (d : Dependencies)
    (history : List ResolveRequest) : List BuildUnit → Ensured
  | [] =>
    ⟨.ok (), { d with
      aggregated := d.aggregated ∪ required, resolutions := d.resolutions + 1 }, []⟩
  | other :: rest =>
    let request : ResolveRequest := ⟨other.id, required.toList⟩
    match resolver history other required with
    | .error reasons => ⟨.error reasons, d, [request]⟩
    | .ok artifacts =>
      let d := { d with
        aggregatedArtifacts := Keyed.insert other.id artifacts d.aggregatedArtifacts }
      let after := resolveOthers resolver required d (history ++ [request]) rest
      { after with requests := request :: after.requests }

/-- Resolves what a step on a unit needs. -/
def ensure (d : Dependencies) (resolver : Resolver) (history : List ResolveRequest)
    (units : UnitGraph) (unit : BuildUnit) (step : Step) : Ensured :=
  let required := step.requiredScopes
  let own := d.resolveUnit resolver history unit required
  match own.result with
  | .error _ => own
  | .ok () =>
    if step.isAggregating && own.dependencies.needsAggregateResolution required then
      let others := resolveOthers resolver required own.dependencies (history ++ own.requests)
        (units.sorted.filter (·.id != unit.id))
      { others with requests := own.requests ++ others.requests }
    else own

end Dependencies

end PhasedBuild
