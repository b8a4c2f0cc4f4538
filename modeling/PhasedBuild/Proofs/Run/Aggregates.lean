import PhasedBuild.Proofs.Units.Dependence
import PhasedBuild.Run.Dependencies

/-!
# What is recorded for other units

An aggregating step resolves its scopes on all other units, unless they have been resolved there
already. The scopes that have been resolved add up, but the artifacts that are recorded for a unit
are those of the last resolution alone.

* `ScopeSet.latestWidening?` is, of the needs that came one after the other, the last one that went
  beyond those before it.
* `Dependencies.Aggregates.ensure`: what a step changes about the other units.
* `Dependencies.record_is_of_latest_widening`: a run of steps leaves for each other unit the
  artifacts of the latest widening. They are those of all resolved scopes if it covers them.
-/

namespace PhasedBuild

/-! ### Sets of scopes -/

namespace ScopeSet

variable {a b : ScopeSet}

/-- Sets of scopes are equal if they have the same scopes. -/
@[ext] theorem ext (h : ∀ scope, a.contains scope = b.contains scope) : a = b :=
  congrArg ScopeSet.mk (funext h)

/-- One set of scopes covers another exactly if it has all its scopes. -/
theorem subset_iff :
    a.subset b = true ↔ ∀ scope, a.contains scope = true → b.contains scope = true := by
  have hall : ∀ scope : Scope, scope ∈ Scope.all := by
    intro scope
    cases scope <;> decide
  simp only [subset, List.all_eq_true, Bool.or_eq_true, Bool.not_eq_true']
  constructor
  · intro h scope ha
    rcases h scope (hall scope) with hnot | hb
    · rw [ha] at hnot
      cases hnot
    · exact hb
  · intro h scope _
    cases ha : a.contains scope with
    | false => exact .inl rfl
    | true => exact .inr (h scope ha)

/-- An empty set of scopes is covered by every set. -/
theorem subset_of_isEmpty (h : a.isEmpty = true) : a.subset b = true := by
  rw [subset_iff]
  intro scope ha
  have hmem : scope ∈ a.toList := mem_toList.2 ha
  rw [isEmpty, List.isEmpty_iff] at h
  rw [h] at hmem
  cases hmem

/-- The order of a union does not matter. -/
theorem union_comm (a b : ScopeSet) : a ∪ b = b ∪ a := by
  ext scope
  simp [Bool.or_comm]

/-- Adding scopes to some that they cover leaves just them. -/
theorem union_eq_right (h : a.subset b = true) : a ∪ b = b := by
  ext scope
  cases ha : a.contains scope with
  | false => simp [ha]
  | true => simp [subset_iff.1 h scope ha]

/-- The scopes of all sets of a list. -/
def unionOf (sets : List ScopeSet) : ScopeSet :=
  sets.foldr (· ∪ ·) .empty

/-- The first of some sets that has a scope which is in none of the sets after it. In a list that
has the latest need first it is the last need that went beyond those before it. -/
def latestWidening? : List ScopeSet → Option ScopeSet
  | [] => none
  | need :: earlier => if need.subset (unionOf earlier) then latestWidening? earlier else some need

end ScopeSet

/-! ### What a resolution finds in the build -/

/-- The ids of the units that are found for a unit and some scopes. -/
def UnitGraph.artifactsOf (g : UnitGraph) (id : String) (scopes : ScopeSet) : List String :=
  (g.dependenciesInScope id scopes).map (·.id)

/-- For more scopes no fewer units are found. -/
theorem UnitGraph.artifactsOf_subset {g : UnitGraph} {id : String} {a b : ScopeSet}
    (h : a.subset b = true) : g.artifactsOf id a ⊆ g.artifactsOf id b := by
  apply List.map_subset
  unfold dependenciesInScope
  intro unit hunit
  obtain ⟨hmem, hreached⟩ := List.mem_filter.1 hunit
  refine List.mem_filter.2 ⟨hmem, ?_⟩
  rw [List.any_eq_true] at hreached ⊢
  obtain ⟨⟨id, scope⟩, hpair, hscope⟩ := hreached
  rw [Bool.and_eq_true] at hscope
  refine ⟨⟨id, scope⟩, hpair, ?_⟩
  rw [Bool.and_eq_true]
  exact ⟨hscope.1, ScopeSet.subset_iff.1 h scope hscope.2⟩

/-- The units of a build other than one. -/
theorem UnitGraph.mem_other_ids_iff {g : UnitGraph} {id other : String} :
    other ∈ (g.sorted.filter (·.id != id)).map (·.id) ↔ other ∈ g.ids ∧ other ≠ id := by
  rw [← mem_sorted_ids_iff]
  simp only [List.mem_map, List.mem_filter, bne_iff_ne]
  constructor
  · rintro ⟨found, ⟨hmem, hne⟩, rfl⟩
    exact ⟨⟨found, hmem, rfl⟩, hne⟩
  · rintro ⟨⟨found, hmem, rfl⟩, hne⟩
    exact ⟨found, ⟨hmem, hne⟩, rfl⟩

/-- For a unit of the build, the build's own units answer every request. -/
theorem Resolver.ofGraph_of_mem {g : UnitGraph} {unit : BuildUnit} (h : unit.id ∈ g.ids)
    (history : List ResolveRequest) (scopes : ScopeSet) :
    Resolver.ofGraph g history unit scopes = .ok (g.artifactsOf unit.id scopes) :=
  if_pos (UnitGraph.get?_isSome_iff.2 h)

/-- What is under a key when values that go by their keys have been put into a table. -/
theorem Keyed.find?_foldl_insert {α β : Type} (key : α → String) (value : String → β)
    (other : String) (items : List α) (table : List (String × β)) :
    find? other (items.foldl (fun table item => insert (key item) (value (key item)) table) table) =
      if other ∈ items.map key then some (value other) else find? other table := by
  induction items generalizing table with
  | nil => simp
  | cons item rest ih =>
    rw [List.foldl_cons, ih]
    by_cases hrest : other ∈ rest.map key
    · simp [hrest]
    · by_cases hitem : other = key item
      · simp [hitem]
      · simp [hrest, hitem, find?_insert_of_ne hitem]

namespace Dependencies

variable {units : UnitGraph} {unit : BuildUnit} {d : Dependencies}
  {history : List ResolveRequest}

/-! ### One step -/

/-- The other units of a build are recorded with what is found for them. -/
theorem aggregated_resolveOthers (required : ScopeSet) {others : List BuildUnit}
    (hothers : ∀ other ∈ others, other.id ∈ units.ids) (d : Dependencies)
    (history : List ResolveRequest) :
    let after := (resolveOthers (.ofGraph units) required d history others).dependencies
    after.aggregated = d.aggregated ∪ required ∧
      after.aggregatedArtifacts = others.foldl (fun table other =>
        Keyed.insert other.id (units.artifactsOf other.id required) table)
          d.aggregatedArtifacts := by
  induction others generalizing d history with
  | nil => exact ⟨rfl, rfl⟩
  | cons other rest ih =>
    obtain ⟨hother, hrest⟩ := List.forall_mem_cons.1 hothers
    simp only [resolveOthers, Resolver.ofGraph_of_mem hother]
    exact ih hrest _ _

/-- Resolving scopes for the unit itself changes nothing about the others. -/
theorem aggregated_resolveUnit (d : Dependencies) (resolver : Resolver)
    (history : List ResolveRequest) (unit : BuildUnit) (required : ScopeSet) :
    let after := (d.resolveUnit resolver history unit required).dependencies
    after.aggregated = d.aggregated ∧ after.aggregatedArtifacts = d.aggregatedArtifacts := by
  unfold resolveUnit
  split
  next =>
    simp only
    split
    next => exact ⟨rfl, rfl⟩
    next => exact ⟨rfl, rfl⟩
  next => exact ⟨rfl, rfl⟩

/-- Scopes must be resolved for the other units unless they have been resolved before. -/
theorem needsAggregateResolution_eq (d : Dependencies) (scopes : ScopeSet) :
    d.needsAggregateResolution scopes = !scopes.subset d.aggregated := by
  unfold needsAggregateResolution
  cases hempty : scopes.isEmpty with
  | false => rfl
  | true => simp [ScopeSet.subset_of_isEmpty hempty]

/-- What is known of the units other than one after aggregating steps that needed some scopes, the
latest need first. -/
structure Aggregates (units : UnitGraph) (unit : BuildUnit) (needs : List ScopeSet)
    (d : Dependencies) : Prop where
  /-- The scopes add up. -/
  aggregated_eq : d.aggregated = .unionOf needs
  /-- The artifacts are those of the latest widening. -/
  find?_eq (other : String) : Keyed.find? other d.aggregatedArtifacts =
    if other ∈ units.ids ∧ other ≠ unit.id then
      (ScopeSet.latestWidening? needs).map (units.artifactsOf other)
    else none

/-- The scopes that the aggregating ones of some steps need, the latest first. -/
def aggregateNeeds (steps : List Step) : List ScopeSet :=
  ((steps.filter (·.isAggregating)).map (·.requiredScopes)).reverse

/-- What steps need comes the latest first, so the first step's needs stand at the end. -/
theorem aggregateNeeds_cons (step : Step) (rest : List Step) :
    aggregateNeeds (step :: rest) = aggregateNeeds rest ++ aggregateNeeds [step] := by
  cases h : step.isAggregating <;> simp [aggregateNeeds, h]

namespace Aggregates

/-- At the start nothing has been needed of the other units. -/
theorem ofExecutions (executions : List Execution) :
    Aggregates units unit [] (ofExecutions unit.id executions) where
  aggregated_eq := rfl
  find?_eq other := by simp [Dependencies.ofExecutions, Keyed.find?, ScopeSet.latestWidening?]

/-- Resolving for the unit itself does not change what is known of the others. -/
theorem resolveUnit {needs : List ScopeSet} (h : Aggregates units unit needs d)
    (resolver : Resolver) (history : List ResolveRequest) (required : ScopeSet) :
    Aggregates units unit needs
      (d.resolveUnit resolver history unit required).dependencies := by
  obtain ⟨haggregated, hartifacts⟩ := aggregated_resolveUnit d resolver history unit required
  constructor
  · rw [haggregated, h.aggregated_eq]
  · intro other
    rw [hartifacts, h.find?_eq]

/-- A need that is covered already adds nothing. -/
theorem covered {needs : List ScopeSet} {required : ScopeSet} (h : Aggregates units unit needs d)
    (hsub : required.subset d.aggregated = true) :
    Aggregates units unit (required :: needs) d := by
  rw [h.aggregated_eq] at hsub
  constructor
  · show _ = required ∪ .unionOf needs
    rw [ScopeSet.union_eq_right hsub, h.aggregated_eq]
  · intro other
    rw [ScopeSet.latestWidening?, if_pos hsub, h.find?_eq]

/-- A need that is not covered takes the place of what was recorded. -/
theorem widened {needs : List ScopeSet} {required : ScopeSet} (h : Aggregates units unit needs d)
    (hsub : required.subset d.aggregated = false) :
    Aggregates units unit (required :: needs)
      (resolveOthers (.ofGraph units) required d history
        (units.sorted.filter (·.id != unit.id))).dependencies := by
  have hids : ∀ other : BuildUnit, other ∈ units.sorted.filter (·.id != unit.id) →
      other.id ∈ units.ids := fun other hother =>
    (UnitGraph.mem_other_ids_iff.1 (List.mem_map_of_mem hother)).1
  obtain ⟨haggregated, hartifacts⟩ := aggregated_resolveOthers required hids d history
  constructor
  · show _ = required ∪ .unionOf needs
    rw [haggregated, h.aggregated_eq, ScopeSet.union_comm]
  · intro other
    have hwider : ¬ required.subset (.unionOf needs) = true := by
      rw [← h.aggregated_eq, hsub]
      exact Bool.false_ne_true
    rw [hartifacts, Keyed.find?_foldl_insert BuildUnit.id (units.artifactsOf · required),
      ScopeSet.latestWidening?, if_neg hwider, h.find?_eq]
    simp only [UnitGraph.mem_other_ids_iff]
    split
    · rfl
    · rfl

/-- A step that gets what it needs adds its need if it works on the whole build. -/
theorem ensure {needs : List ScopeSet} (h : Aggregates units unit needs d) (step : Step)
    (hok : (d.ensure (.ofGraph units) history units unit step).result = .ok ()) :
    Aggregates units unit (aggregateNeeds [step] ++ needs)
      (d.ensure (.ofGraph units) history units unit step).dependencies := by
  have hown := h.resolveUnit (.ofGraph units) history step.requiredScopes
  unfold Dependencies.ensure at hok ⊢
  simp only at hok ⊢
  split at hok
  next reasons heq =>
    rw [heq] at hok
    cases hok
  next heq =>
    rw [needsAggregateResolution_eq]
    cases haggregating : step.isAggregating with
    | false => simpa [aggregateNeeds, haggregating] using hown
    | true =>
      have hneeds : aggregateNeeds [step] ++ needs = step.requiredScopes :: needs := by
        simp [aggregateNeeds, haggregating]
      rw [hneeds]
      cases hsub : step.requiredScopes.subset (d.resolveUnit (.ofGraph units) history unit
          step.requiredScopes).dependencies.aggregated with
      | true => exact hown.covered hsub
      | false => exact hown.widened hsub

end Aggregates

/-! ### A run of steps -/

/-- Resolves what steps on a unit need, up to the first that does not get it. -/
def ensureAll (d : Dependencies) (resolver : Resolver) (history : List ResolveRequest)
    (units : UnitGraph) (unit : BuildUnit) : List Step → Ensured
  | [] => ⟨.ok (), d, []⟩
  | step :: rest =>
    let first := d.ensure resolver history units unit step
    match first.result with
    | .error _ => first
    | .ok () =>
      let later := first.dependencies.ensureAll resolver (history ++ first.requests) units unit rest
      { later with requests := first.requests ++ later.requests }

/-- What is known of the other units after a sequence of steps is known for the needs of its
aggregating ones. -/
theorem Aggregates.ensureAll {needs : List ScopeSet} (h : Aggregates units unit needs d)
    (steps : List Step)
    (hok : (d.ensureAll (.ofGraph units) history units unit steps).result = .ok ()) :
    Aggregates units unit (aggregateNeeds steps ++ needs)
      (d.ensureAll (.ofGraph units) history units unit steps).dependencies := by
  induction steps generalizing d history needs with
  | nil => exact h
  | cons step rest ih =>
    unfold Dependencies.ensureAll at hok ⊢
    simp only at hok ⊢
    split at hok
    next reasons heq =>
      rw [heq] at hok
      cases hok
    next heq =>
      rw [aggregateNeeds_cons, List.append_assoc]
      exact ih (h.ensure step heq) hok

/-- After steps that all got what they need, the scopes that count as resolved for the other units
are those of all aggregating steps. What is recorded for each other unit is what is found with the
scopes of the latest widening. It has all that is found with any scopes that these cover. -/
theorem record_is_of_latest_widening (units : UnitGraph) (unit : BuildUnit)
    (executions : List Execution) (history : List ResolveRequest) (steps : List Step)
    (hok : ((ofExecutions unit.id executions).ensureAll (.ofGraph units) history units unit
      steps).result = .ok ()) :
    let d := ((ofExecutions unit.id executions).ensureAll (.ofGraph units) history units unit
      steps).dependencies
    d.aggregated = .unionOf (aggregateNeeds steps) ∧
      (∀ other, Keyed.find? other d.aggregatedArtifacts =
        if other ∈ units.ids ∧ other ≠ unit.id then
          (ScopeSet.latestWidening? (aggregateNeeds steps)).map (units.artifactsOf other)
        else none) ∧
      ∀ widest, ScopeSet.latestWidening? (aggregateNeeds steps) = some widest →
        ∀ other ∈ units.units, other.id ≠ unit.id → ∀ scopes, scopes.subset widest = true →
          ∀ later, ∃ artifacts, Resolver.ofGraph units later other scopes = .ok artifacts ∧
            artifacts ⊆ (Keyed.find? other.id d.aggregatedArtifacts).getD [] := by
  intro d
  have haggregates := (Aggregates.ofExecutions executions).ensureAll steps hok
  rw [List.append_nil] at haggregates
  refine ⟨haggregates.aggregated_eq, haggregates.find?_eq, ?_⟩
  intro widest hwidest other hother hne scopes hsub later
  have hid : other.id ∈ units.ids := List.mem_map_of_mem hother
  refine ⟨_, Resolver.ofGraph_of_mem hid later scopes, ?_⟩
  rw [haggregates.find?_eq, if_pos ⟨hid, hne⟩, hwidest]
  exact UnitGraph.artifactsOf_subset hsub

end Dependencies

/-! ### Scopes that overlap -/

/-- Three units, one of which has another one provided. -/
def UnitGraph.provision : UnitGraph where
  units := [{ id := "app" }, { id := "lib" },
    { id := "core", dependencies := [{ unit := "lib", scope := some .provided }] }]
  sorted := [{ id := "app" }, { id := "lib" },
    { id := "core", dependencies := [{ unit := "lib", scope := some .provided }] }]
  nodup_ids := by decide
  sorted_perm := .refl _
  arranged := ⟨rfl, rfl, rfl, trivial⟩

/-- What is provided is found with the scopes of either need together. -/
theorem UnitGraph.artifactsOf_provision : provision.artifactsOf "core"
    (.unionOf [ResolutionScope.runtime.scopes, ResolutionScope.compile.scopes]) = ["lib"] := by
  simp +decide [artifactsOf, dependenciesInScope, provision, reach, scopedDependencies, get?, ids,
    Scope.all, Scope.effective?]

/-- It is not found at run time. -/
theorem UnitGraph.artifactsOf_provision_runtime :
    provision.artifactsOf "core" ResolutionScope.runtime.scopes = [] := by
  simp +decide [artifactsOf, dependenciesInScope, provision, reach, scopedDependencies, get?, ids,
    Scope.all, Scope.effective?]

/-- A step that works on the whole build and needs artifacts. -/
def Step.gathering (goal : String) (needs : ResolutionScope) : Step where
  descriptor :=
    { plugin := ⟨"org.acme", "acme-plugin", some "1.0"⟩, goal, aggregator := true,
      requiresResolution := some needs }
  executionId := "default-cli"
  source := .cli
  configuration := { name := ConfigNode.rootName }

@[simp] theorem Step.requiredScopes_gathering (goal : String) (needs : ResolutionScope) :
    (Step.gathering goal needs).requiredScopes = needs.scopes := by
  ext scope
  exact Bool.or_false _

namespace Dependencies

/-- Artifacts to compile are needed, then those at run time. -/
def gatheringSteps : List Step :=
  [.gathering "pack" .compile, .gathering "report" .runtime]

/-- The first of the two steps needs artifacts to compile, the second one at run time. -/
theorem aggregateNeeds_gatheringSteps :
    aggregateNeeds gatheringSteps =
      [ResolutionScope.runtime.scopes, ResolutionScope.compile.scopes] := by
  rw [aggregateNeeds, gatheringSteps, List.filter_eq_self.2 (by decide)]
  simp

/-- What there is after both steps. -/
def gathered : Ensured :=
  (ofExecutions "app" []).ensureAll (.ofGraph .provision) [] .provision { id := "app" }
    gatheringSteps

/-- Artifacts have been recorded for the scopes of the second step alone, though the unit depends on
another one in a scope that only the first step needed. -/
theorem record_of_gathered : gathered.result = .ok () ∧
    Keyed.find? "core" gathered.dependencies.aggregatedArtifacts =
      some (UnitGraph.provision.artifactsOf "core" ResolutionScope.runtime.scopes) := by
  have hok : gathered.result = .ok () := rfl
  refine ⟨hok, ?_⟩
  obtain ⟨-, hrecord, -⟩ :=
    record_is_of_latest_widening .provision { id := "app" } [] [] gatheringSteps hok
  rw [aggregateNeeds_gatheringSteps] at hrecord
  exact hrecord "core"

/-- What is recorded need not be all that is found with the scopes that count as resolved. -/
theorem record_lacks_artifacts : ¬ ∀ (units : UnitGraph) (unit : BuildUnit)
    (executions : List Execution) (history : List ResolveRequest) (steps : List Step),
    (∀ step ∈ steps, step.isAggregating = true) →
    let after := (ofExecutions unit.id executions).ensureAll (.ofGraph units) history units unit
      steps
    after.result = .ok () →
      ∀ other ∈ units.units, other.id ≠ unit.id → ∀ later artifacts,
        Resolver.ofGraph units later other after.dependencies.aggregated = .ok artifacts →
          artifacts ⊆ (Keyed.find? other.id after.dependencies.aggregatedArtifacts).getD [] := by
  intro h
  have haggregates : Aggregates .provision { id := "app" } (aggregateNeeds gatheringSteps ++ [])
      gathered.dependencies := (Aggregates.ofExecutions []).ensureAll gatheringSteps rfl
  rw [List.append_nil, aggregateNeeds_gatheringSteps] at haggregates
  have hrecord : Keyed.find? "core" gathered.dependencies.aggregatedArtifacts =
      some (UnitGraph.provision.artifactsOf "core" ResolutionScope.runtime.scopes) :=
    haggregates.find?_eq "core"
  have hcore : { id := "core", dependencies := [{ unit := "lib", scope := some .provided }] } ∈
      UnitGraph.provision.units := by
    simp [UnitGraph.provision]
  have hanswer := Resolver.ofGraph_of_mem (List.mem_map_of_mem hcore) []
    gathered.dependencies.aggregated
  have hsub := h .provision { id := "app" } [] [] gatheringSteps (by decide) rfl _ hcore (by decide)
    [] _ hanswer
  change UnitGraph.provision.artifactsOf "core" _ ⊆
    (Keyed.find? "core" gathered.dependencies.aggregatedArtifacts).getD [] at hsub
  rw [hrecord, haggregates.aggregated_eq, UnitGraph.artifactsOf_provision_runtime,
    UnitGraph.artifactsOf_provision] at hsub
  cases hsub List.mem_cons_self

end Dependencies

end PhasedBuild
