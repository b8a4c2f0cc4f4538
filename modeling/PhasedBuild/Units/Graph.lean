import PhasedBuild.Closure
import PhasedBuild.Error.Record
import PhasedBuild.Units.Order

/-!
# The graph of units

Units are built after the units that they depend on.

* `UnitGraph.ofUnits` checks the units and puts them into build order.
* `UnitGraph.downstream` and `UnitGraph.reachable` follow dependencies backwards, and modules and
  dependencies forwards.
* `UnitGraph.dependenciesInScope` follows dependencies and keeps track of their scopes.
-/

namespace PhasedBuild

/-- Whether all units that a unit depends on are among the placed ones. -/
def BuildUnit.isReady (placed : List String) (unit : BuildUnit) : Bool :=
  unit.dependencies.all fun dependency => placed.contains dependency.unit

/-- Each unit comes after the units that it depends on, which stand before it or are placed
already. -/
def Arranged (placed : List String) : List BuildUnit → Prop
  | [] => True
  | unit :: rest => unit.isReady placed = true ∧ Arranged (placed ++ [unit.id]) rest

/-- The units of a build and the order in which they are built. -/
structure UnitGraph where
  /-- The units in the order of their declaration. -/
  units : List BuildUnit := []
  /-- The units in build order. -/
  sorted : List BuildUnit := []
  nodup_ids : (units.map (·.id)).Nodup := by simp
  sorted_perm : sorted.Perm units := by simp
  arranged : Arranged [] sorted := by trivial
deriving Repr

namespace UnitGraph

/-! ### Construction -/

/-- The first id that occurs a second time. -/
def firstDuplicate? : List String → List String → Option String
  | _, [] => none
  | seen, id :: rest => if id ∈ seen then some id else firstDuplicate? (id :: seen) rest

/-- If there is no duplicate, no id comes twice or has been seen before. -/
theorem nodup_of_firstDuplicate? {seen ids : List String} (h : firstDuplicate? seen ids = none) :
    ids.Nodup ∧ ∀ id ∈ ids, id ∉ seen := by
  induction ids generalizing seen with
  | nil => simp
  | cons id rest ih =>
    unfold firstDuplicate? at h
    split at h
    next => cases h
    next hid =>
      obtain ⟨hnodup, hrest⟩ := ih h
      refine ⟨List.nodup_cons.2 ⟨fun hmem => hrest id hmem List.mem_cons_self, hnodup⟩, ?_⟩
      intro other hother
      rcases List.mem_cons.1 hother with rfl | hother
      · exact hid
      · exact fun hmem => hrest other hother (List.mem_cons_of_mem _ hmem)

/-- The first dependency or else module of a unit that names no unit. -/
def danglingReference? (ids : List String) (unit : BuildUnit) : Option Fault :=
  match unit.dependencies.find? fun dependency => !ids.contains dependency.unit with
  | some dependency => some (.unknownDependency dependency.unit unit.id)
  | none => (unit.modules.find? (!ids.contains ·)).map (.unknownModule · unit.id)

/-- A unit has no dangling reference exactly if all its dependencies and modules are among the
ids. -/
theorem danglingReference?_eq_none_iff {ids : List String} {unit : BuildUnit} :
    danglingReference? ids unit = none ↔
      (∀ dependency ∈ unit.dependencies, dependency.unit ∈ ids) ∧
        ∀ id ∈ unit.modules, id ∈ ids := by
  unfold danglingReference?
  split
  next dependency hfind =>
    have hnot : dependency.unit ∉ ids := by simpa using List.find?_some hfind
    constructor
    · intro h
      cases h
    · rintro ⟨hdependencies, -⟩
      exact absurd (hdependencies _ (List.mem_of_find?_eq_some hfind)) hnot
  next hnone =>
    have hdependencies : ∀ dependency ∈ unit.dependencies, dependency.unit ∈ ids := by
      simpa using hnone
    rw [Option.map_eq_none_iff, List.find?_eq_none, and_iff_right hdependencies]
    simp

/-- The units at all positions are the units. -/
theorem map_finRange (units : List BuildUnit) :
    (List.finRange units.length).map units.get = units := by
  rw [List.finRange, List.map_ofFn]
  exact List.ofFn_getElem

/-- Units that can come one after the other are arranged. -/
theorem arranged_map {units : List BuildUnit}
    (hdeclared : ∀ unit ∈ units, ∀ dependency ∈ unit.dependencies,
      dependency.unit ∈ units.map (·.id))
    (pre post : List (Fin units.length))
    (h : ∀ before i after, post = before ++ i :: after →
      (UnitEdges.ofUnits units).IsReady (pre ++ before) i) :
    Arranged ((pre.map units.get).map (·.id)) (post.map units.get) := by
  induction post generalizing pre with
  | nil => trivial
  | cons i post ih =>
    refine ⟨?_, ?_⟩
    · rw [BuildUnit.isReady, List.all_eq_true]
      intro dependency hdependency
      obtain ⟨source, hsource⟩ := UnitEdges.exists_position?
        (hdeclared (units.get i) (List.getElem_mem _) dependency hdependency)
      have hready := h [] i post rfl
      rw [List.append_nil] at hready
      have hmem := hready.reverse_subset source
        (UnitEdges.mem_reverse_ofUnits_iff.2 ⟨dependency, hdependency, hsource⟩)
      rw [List.contains_iff_mem, ← UnitEdges.id_of_position? hsource, List.map_map]
      exact List.mem_map_of_mem (f := (·.id) ∘ units.get) hmem
    · have hrest := ih (pre ++ [i]) fun before j after heq => by
        rw [List.append_assoc]
        exact h (i :: before) j after (by rw [heq]; rfl)
      rw [List.map_append, List.map_append] at hrest
      exact hrest

/-- Checks units and puts them into build order. -/
def ofUnits (units : List BuildUnit) : Except BuildError UnitGraph :=
  let ids := units.map (·.id)
  match hdup : firstDuplicate? [] ids with
  | some id => .error (Fault.duplicateUnit id)
  | none =>
    match hdangling : units.findSome? fun unit =>
        (danglingReference? ids unit).map (unit.id, ·) with
    | some (id, fault) => .error ((fault : BuildError).withUnit id)
    | none =>
      let edges := UnitEdges.ofUnits units
      let order := edges.placed.order
      have hsound : edges.placed.Sound edges := edges.sound_placed
      have hdeclared : ∀ unit ∈ units, (∀ dependency ∈ unit.dependencies, dependency.unit ∈ ids) ∧
          ∀ id ∈ unit.modules, id ∈ ids := fun unit hunit =>
        danglingReference?_eq_none_iff.1
          (Option.map_eq_none_iff.1 (List.findSome?_eq_none_iff.1 hdangling unit hunit))
      if hlength : order.length = units.length then
        .ok {
          units
          sorted := order.map units.get
          nodup_ids := (nodup_of_firstDuplicate? hdup).1
          sorted_perm := by
            have hperm :=
              (UnitEdges.perm_finRange_of_nodup hsound.nodup_order hlength).map units.get
            rwa [map_finRange] at hperm
          arranged := arranged_map (fun unit hunit => (hdeclared unit hunit).1) [] order
            fun before i after heq => (hsound.greedy before after i heq).1 }
      else .error (Fault.dependencyCycle (edges.leftovers.map fun i => (units.get i).id))

/-! ### Questions -/

/-- The number of units. -/
def size (g : UnitGraph) : Nat :=
  g.units.length

/-- The ids in the order of declaration. -/
def ids (g : UnitGraph) : List String :=
  g.units.map (·.id)

/-- The unit of an id. -/
def get? (g : UnitGraph) (id : String) : Option BuildUnit :=
  g.units.find? (·.id == id)

/-- Whether a unit has the id. -/
def contains (g : UnitGraph) (id : String) : Bool :=
  (g.get? id).isSome

/-- The position of a unit in the order of declaration. -/
def index? (g : UnitGraph) (id : String) : Option Nat :=
  g.units.findIdx? (·.id == id)

/-- The ids of the units that a unit depends on directly. -/
def prerequisites (g : UnitGraph) (id : String) : List String :=
  ((g.get? id).map (·.prerequisites)).getD []

/-- The ids of the units that depend on a unit directly. -/
def dependents (g : UnitGraph) (id : String) : List String :=
  (g.units.filter fun unit => unit.dependencies.any (·.unit == id)).map (·.id)

/-- The ids of the units that depend on a unit directly or through others, in build order. -/
def downstream (g : UnitGraph) (id : String) : List String :=
  let reached := reach g.dependents g.ids (g.dependents id)
  (g.sorted.map (·.id)).filter reached.contains

/-- The units that one names as its modules or depends on. -/
def neighbours (g : UnitGraph) (id : String) : List String :=
  ((g.get? id).map fun unit => unit.modules ++ unit.prerequisites).getD []

/-- A unit and all units that modules and dependencies lead to, in build order. -/
def reachable (g : UnitGraph) (id : String) : List BuildUnit :=
  let reached := reach g.neighbours g.ids [id]
  g.sorted.filter fun unit => reached.contains unit.id

/-- The dependencies of a unit that is reached with a scope, each with its own scope. -/
def scopedDependencies (g : UnitGraph) (id : String) (inherited : Option Scope) :
    List (String × Scope) :=
  ((g.get? id).map fun unit => unit.dependencies.filterMap fun dependency =>
    (Scope.effective? dependency.scope inherited).map (dependency.unit, ·)).getD []

/-- The units that are reached from a unit through dependencies with a scope of the set, in build
order. -/
def dependenciesInScope (g : UnitGraph) (id : String) (scopes : ScopeSet) : List BuildUnit :=
  let pairs := g.ids.flatMap fun id => Scope.all.map (id, ·)
  let reached := reach (fun (id, scope) => g.scopedDependencies id (some scope)) pairs
    (g.scopedDependencies id none)
  g.sorted.filter fun unit =>
    reached.any fun (reachedId, scope) => reachedId == unit.id && scopes.contains scope

/-- Those units whose ids are in a list, without dependencies and modules on others. -/
def restrict (ids : List String) (units : List BuildUnit) : List BuildUnit :=
  (units.filter fun unit => ids.contains unit.id).map fun unit =>
    { unit with
      dependencies := unit.dependencies.filter fun dependency => ids.contains dependency.unit
      modules := unit.modules.filter ids.contains }

end UnitGraph

end PhasedBuild
