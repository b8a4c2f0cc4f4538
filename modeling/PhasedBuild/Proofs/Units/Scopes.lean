import Mathlib.Data.List.ProdSigma
import PhasedBuild.Proofs.Search
import PhasedBuild.Proofs.Units.Dependence

/-!
# Scopes along paths of dependencies

A unit may be reached through several paths, and through each of them with another scope. The search
for scoped dependencies goes over pairs of a unit and a scope with which it is reached.

* `UnitGraph.IsPath` and `UnitGraph.scopeAlong?` say what a path of dependencies is and which scope
  it ends with; dependencies of one unit on another with different scopes are different paths.
* `UnitGraph.exists_path_iff`: the pairs that follow each other in the search are those of a path.
* `UnitGraph.scoped_dependencies_follow_paths`: the units that are found are those at the ends of
  paths with a scope that is asked for, and the search ends.
-/

namespace PhasedBuild.UnitGraph

open Relation

/-! ### Paths -/

/-- Dependencies lead from one unit to another: each of them is declared by the unit that the one
before it is on. -/
def IsPath (g : UnitGraph) (id : String) : List UnitDependency → String → Prop
  | [], other => id = other
  | dependency :: rest, other =>
    (∃ unit ∈ g.units, unit.id = id ∧ dependency ∈ unit.dependencies) ∧
      g.IsPath dependency.unit rest other

/-- The scope that a path of dependencies ends with if it is reached with `inherited`. There is none
if one of them is not transitive. -/
def scopeAlong? (inherited : Option Scope) : List UnitDependency → Option Scope
  | [] => inherited
  | dependency :: rest =>
    (Scope.effective? dependency.scope inherited).bind fun scope => scopeAlong? (some scope) rest

variable {g : UnitGraph} {id other : String} {scope : Scope} {inherited : Option Scope}

/-- A dependency of a unit is followed with a scope exactly if it has an effective one under the
inherited scope. -/
theorem mem_scopedDependencies_iff :
    (other, scope) ∈ g.scopedDependencies id inherited ↔
      ∃ unit ∈ g.units, unit.id = id ∧ ∃ dependency ∈ unit.dependencies,
        dependency.unit = other ∧ Scope.effective? dependency.scope inherited = some scope := by
  constructor
  · intro h
    unfold scopedDependencies at h
    cases hget : g.get? id with
    | none =>
      rw [hget] at h
      cases h
    | some unit =>
      obtain ⟨hunit, hid⟩ := get?_eq_some_iff.1 hget
      rw [hget] at h
      obtain ⟨dependency, hdependency, heffective⟩ := List.mem_filterMap.1 h
      obtain ⟨found, hfound, heq⟩ := Option.map_eq_some_iff.1 heffective
      obtain ⟨rfl, rfl⟩ := Prod.ext_iff.1 heq
      exact ⟨unit, hunit, hid, dependency, hdependency, rfl, hfound⟩
  · rintro ⟨unit, hunit, hid, dependency, hdependency, rfl, heffective⟩
    rw [scopedDependencies, get?_eq_some_iff.2 ⟨hunit, hid⟩]
    refine List.mem_filterMap.2 ⟨dependency, hdependency, ?_⟩
    rw [heffective]
    rfl

/-- A path that is not empty begins with a scoped dependency. -/
theorem exists_cons_iff {last : Scope} :
    (∃ dependency rest, g.IsPath id (dependency :: rest) other ∧
        scopeAlong? inherited (dependency :: rest) = some last) ↔
      ∃ first ∈ g.scopedDependencies id inherited, ∃ rest, g.IsPath first.1 rest other ∧
        scopeAlong? (some first.2) rest = some last := by
  constructor
  · rintro ⟨dependency, rest, ⟨⟨unit, hunit, hid, hdependency⟩, hrest⟩, hscope⟩
    obtain ⟨scope, heffective, halong⟩ := Option.bind_eq_some_iff.1 hscope
    exact ⟨(dependency.unit, scope), mem_scopedDependencies_iff.2
      ⟨unit, hunit, hid, dependency, hdependency, rfl, heffective⟩, rest, hrest, halong⟩
  · rintro ⟨⟨_, scope⟩, hfirst, rest, hrest, halong⟩
    obtain ⟨unit, hunit, hid, dependency, hdependency, rfl, heffective⟩ :=
      mem_scopedDependencies_iff.1 hfirst
    refine ⟨dependency, rest, ⟨⟨unit, hunit, hid, hdependency⟩, hrest⟩, ?_⟩
    rw [scopeAlong?, heffective]
    exact halong

variable (g) in
/-- What the search for scoped dependencies goes to from a unit that is reached with a scope. -/
def scopedNext (reached : String × Scope) : List (String × Scope) :=
  g.scopedDependencies reached.1 (some reached.2)

/-- The search goes from one pair to another exactly along the paths of dependencies. -/
theorem exists_path_iff {last : Scope} :
    ReflTransGen (fun a b => b ∈ g.scopedNext a) (id, scope) (other, last) ↔
      ∃ path, g.IsPath id path other ∧ scopeAlong? (some scope) path = some last := by
  constructor
  · intro h
    generalize hstart : (id, scope) = start at h
    induction h using ReflTransGen.head_induction_on generalizing id scope with
    | refl =>
      obtain ⟨rfl, rfl⟩ := Prod.ext_iff.1 hstart
      exact ⟨[], rfl, rfl⟩
    | head hstep _ ih =>
      subst hstart
      obtain ⟨path, hpath, halong⟩ := ih rfl
      obtain ⟨dependency, rest, hcons⟩ := exists_cons_iff.2 ⟨_, hstep, path, hpath, halong⟩
      exact ⟨dependency :: rest, hcons⟩
  · rintro ⟨path, hpath, halong⟩
    induction path generalizing id scope with
    | nil =>
      obtain rfl : id = other := hpath
      obtain rfl := Option.some.inj halong
      exact .refl
    | cons dependency rest ih =>
      obtain ⟨hdeclared, hrest⟩ := hpath
      obtain ⟨unit, hunit, hid, hdependency⟩ := hdeclared
      obtain ⟨first, heffective, hfirst⟩ := Option.bind_eq_some_iff.1 halong
      exact .head (mem_scopedDependencies_iff.2
        ⟨unit, hunit, hid, dependency, hdependency, rfl, heffective⟩) (ih hrest hfirst)

/-! ### The search -/

variable (g) in
/-- All pairs of a unit and a scope. -/
def scopedPairs : List (String × Scope) :=
  g.ids ×ˢ Scope.all

/-- There are five scopes for each unit. -/
theorem length_scopedPairs : g.scopedPairs.length = 5 * g.size := by
  rw [scopedPairs, List.length_product, Nat.mul_comm, length_ids]
  rfl

/-- No pair of a unit and a scope comes twice. -/
theorem nodup_scopedPairs : g.scopedPairs.Nodup :=
  List.Nodup.product g.nodup_ids (by decide)

/-- Dependencies are followed to such pairs only. -/
theorem scopedDependencies_subset (id : String) (inherited : Option Scope) :
    g.scopedDependencies id inherited ⊆ g.scopedPairs := by
  rintro ⟨other, scope⟩ h
  obtain ⟨unit, hunit, hid, dependency, hdependency, hother, -⟩ := mem_scopedDependencies_iff.1 h
  have hmem : other ∈ g.ids := mem_ids_of_prerequisite
    (mem_prerequisites_iff.2 ⟨unit, hunit, hid, dependency, hdependency, hother⟩)
  exact List.mem_product.2 ⟨hmem, by cases scope <;> decide⟩

/-- The search goes on to such pairs only. -/
theorem scopedNext_subset (reached : String × Scope) : g.scopedNext reached ⊆ g.scopedPairs :=
  scopedDependencies_subset reached.1 (some reached.2)

variable (g) in
/-- The pairs of a unit and a scope with which it is reached from a unit. -/
def scopedReach (id : String) : List (String × Scope) :=
  reach g.scopedNext g.scopedPairs (g.scopedDependencies id none)

/-- A unit is reached with a scope exactly if a path of dependencies leads to it and ends with that
scope. -/
theorem mem_scopedReach_iff : (other, scope) ∈ g.scopedReach id ↔
    ∃ path, path ≠ [] ∧ g.IsPath id path other ∧ scopeAlong? none path = some scope := by
  rw [scopedReach, mem_reach_iff_of_subset nodup_scopedPairs (scopedDependencies_subset id none)
    scopedNext_subset]
  constructor
  · rintro ⟨⟨first, scope⟩, hfirst, hpath⟩
    obtain ⟨rest, hrest⟩ := exists_path_iff.1 hpath
    obtain ⟨dependency, rest, hcons⟩ := exists_cons_iff.2 ⟨_, hfirst, rest, hrest⟩
    exact ⟨dependency :: rest, List.cons_ne_nil _ _, hcons⟩
  · rintro ⟨path, hne, hpath⟩
    cases path with
    | nil => exact absurd rfl hne
    | cons dependency rest =>
      obtain ⟨first, hfirst, hrest⟩ := exists_cons_iff.1 ⟨dependency, rest, hpath⟩
      exact ⟨first, hfirst, exists_path_iff.2 hrest⟩

/-- Whether a unit is among pairs with a scope of a set. -/
def isAmong (scopes : ScopeSet) (pairs : List (String × Scope)) (unit : BuildUnit) : Bool :=
  pairs.any fun (id, scope) => id == unit.id && scopes.contains scope

/-- The dependencies in some scopes are the units in build order that are reached with one of
them. -/
theorem dependenciesInScope_eq (id : String) (scopes : ScopeSet) :
    g.dependenciesInScope id scopes = g.sorted.filter (isAmong scopes (g.scopedReach id)) := rfl

/-- A unit is among pairs with some scopes exactly if it stands in a pair with one of them. -/
theorem isAmong_iff {scopes : ScopeSet} {pairs : List (String × Scope)} {unit : BuildUnit} :
    isAmong scopes pairs unit = true ↔
      ∃ scope, (unit.id, scope) ∈ pairs ∧ scopes.contains scope = true := by
  simp [isAmong]

variable (g) in
/-- The search for the scoped dependencies of a unit, which is followed first, after a number of
further turns. -/
def scopedSearch (id : String) (turns : Nat) : Search (String × Scope) :=
  .after g.scopedNext turns (.findAll {} (g.scopedDependencies id none))

/-- The dependencies in scope stand in build order, each once: they are the units to which a path of
dependencies leads that is not empty and ends with a scope of the set. The search for them ends when
each unit has been followed with each scope at the latest. -/
theorem scoped_dependencies_follow_paths (g : UnitGraph) (id : String) (scopes : ScopeSet) :
    (g.dependenciesInScope id scopes).Sublist g.sorted ∧
    (g.dependenciesInScope id scopes).Nodup ∧
    (∀ unit, unit ∈ g.dependenciesInScope id scopes ↔
      unit ∈ g.units ∧ ∃ path, path ≠ [] ∧ g.IsPath id path unit.id ∧
        ∃ scope ∈ scopeAlong? none path, scopes.contains scope = true) ∧
    ∀ more, (g.scopedSearch id (5 * g.size + more)).waiting = [] ∧
      g.dependenciesInScope id scopes =
        g.sorted.filter (isAmong scopes (g.scopedSearch id (5 * g.size + more)).found) := by
  have hnodup : g.sorted.Nodup := g.nodup_sorted_ids.of_map
  refine ⟨List.filter_sublist, hnodup.filter _, fun unit => ?_, fun more => ?_⟩
  · rw [dependenciesInScope_eq, List.mem_filter, g.sorted_perm.mem_iff, isAmong_iff]
    refine and_congr_right fun _ => ⟨?_, ?_⟩
    · rintro ⟨scope, hreach, hscope⟩
      obtain ⟨path, hne, hpath, halong⟩ := mem_scopedReach_iff.1 hreach
      exact ⟨path, hne, hpath, scope, halong, hscope⟩
    · rintro ⟨path, hne, hpath, scope, halong, hscope⟩
      exact ⟨scope, mem_scopedReach_iff.2 ⟨path, hne, hpath, halong⟩, hscope⟩
  · have hsearch := Search.ends_with_reach g.scopedNext nodup_scopedPairs
      (scopedDependencies_subset id none) scopedNext_subset more
    rw [length_scopedPairs] at hsearch
    obtain ⟨hwaiting, hfound⟩ := hsearch
    refine ⟨hwaiting, ?_⟩
    rw [dependenciesInScope_eq]
    refine List.filter_congr fun unit _ => ?_
    rw [Bool.eq_iff_iff, isAmong_iff, isAmong_iff]
    exact exists_congr fun scope => and_congr_left fun _ => (hfound (unit.id, scope)).symm

end PhasedBuild.UnitGraph
