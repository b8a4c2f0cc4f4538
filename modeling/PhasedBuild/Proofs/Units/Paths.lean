import PhasedBuild.Proofs.Search
import PhasedBuild.Proofs.Traversal
import PhasedBuild.Proofs.Units.BuildOrder
import PhasedBuild.Proofs.Units.Dependence

/-!
# Units that paths lead to

Two questions about the units of a build follow paths. The units downstream of a unit are those from
which dependencies lead to it; the units that can be reached from it are those to which modules and
dependencies lead in any mixture. Dependencies form no cycle, but modules may, also together with
dependencies.

* `UnitGraph.Groups`, `UnitGraph.Mentions`: one unit names another one as a module, or in any way.
* `UnitGraph.mem_downstream_iff_names`, `UnitGraph.mem_reachable_iff_mentions`: the answers hold the
  units on such paths.
* `UnitGraph.questions_follow_paths`: they stand in build order, each once, and the worklists that
  look for them get empty.
-/

namespace PhasedBuild.UnitGraph

open Relation

/-! ### Paths -/

/-- One unit names another one as its module. -/
def Groups (units : List BuildUnit) (id other : String) : Prop :=
  ∃ unit ∈ units, unit.id = id ∧ other ∈ unit.modules

/-- One unit names another one, as its module or as a dependency. -/
def Mentions (units : List BuildUnit) (id other : String) : Prop :=
  Groups units id other ∨ Names units id other

variable {g : UnitGraph} {id other : String}

/-- The prerequisites of a unit are those that it names. -/
theorem mem_prerequisites_iff_names : other ∈ g.prerequisites id ↔ Names g.units id other :=
  mem_prerequisites_iff

/-- The neighbours of a unit are those that it mentions. -/
theorem mem_neighbours_iff : other ∈ g.neighbours id ↔ Mentions g.units id other := by
  have hsplit : other ∈ g.neighbours id ↔
      (∃ unit, g.get? id = some unit ∧ other ∈ unit.modules) ∨ other ∈ g.prerequisites id := by
    unfold neighbours prerequisites
    cases g.get? id <;> simp
  rw [hsplit, mem_prerequisites_iff_names, Mentions, Groups]
  simp only [get?_eq_some_iff, and_assoc]

/-- A unit depends on what a chain of names leads to. -/
theorem dependsOn_iff : g.DependsOn id other ↔ TransGen (Names g.units) id other := by
  have hstep : (fun a b => b ∈ g.prerequisites a) = Names g.units := by
    funext a b
    exact propext mem_prerequisites_iff_names
  rw [DependsOn, hstep]

/-- A unit leads to what a chain of mentions leads to, itself included. -/
theorem leadsTo_iff : g.LeadsTo id other ↔ ReflTransGen (Mentions g.units) id other := by
  have hstep : (fun a b => b ∈ g.neighbours a) = Mentions g.units := by
    funext a b
    exact propext mem_neighbours_iff
  rw [LeadsTo, hstep]

/-- The units downstream of a unit are those from which dependencies lead to it. -/
theorem mem_downstream_iff_names : other ∈ g.downstream id ↔ TransGen (Names g.units) other id :=
  mem_downstream_iff.trans dependsOn_iff

/-- The units that can be reached from a unit are those to which modules and dependencies lead. -/
theorem mem_reachable_iff_mentions {unit : BuildUnit} : unit ∈ g.reachable id ↔
    unit ∈ g.units ∧ ReflTransGen (Mentions g.units) id unit.id :=
  mem_reachable_iff.trans (and_congr_right fun _ => leadsTo_iff)

/-! ### Worklists -/

variable (g)

/-- The number of edges between units, as `dependents` has them. -/
def edgeCount : Nat :=
  Traversal.stepsFrom g.dependents g.ids

/-- The worklist for the units downstream of a unit, after a number of turns. -/
def downstreamTraversal (id : String) (turns : Nat) : Traversal String :=
  .after g.dependents turns (.ofSeeds (g.dependents id))

/-- What the worklist for the units that can be reached goes to from a unit: its modules and its
dependencies, as far as they are units. -/
def knownNeighbours (id : String) : List String :=
  (g.neighbours id).filter g.ids.contains

/-- The worklist for the units that can be reached from a unit, after a number of turns. -/
def reachableSearch (id : String) (turns : Nat) : Search String :=
  .after g.knownNeighbours turns (.findAll {} [id])

variable {g}

/-- Dependents are units. -/
theorem dependents_subset (id : String) : g.dependents id ⊆ g.ids := fun _ h =>
  mem_ids_of_mem_prerequisites (mem_dependents_iff.1 h)

/-- Known neighbours are units. -/
theorem knownNeighbours_subset (id : String) : g.knownNeighbours id ⊆ g.ids := fun other h => by
  simpa using (List.mem_filter.1 h).2

/-- Leaving out neighbours that are no units does not change what is reached. -/
theorem mem_reach_knownNeighbours_iff {seeds : List String} :
    other ∈ reach g.knownNeighbours g.ids seeds ↔ other ∈ reach g.neighbours g.ids seeds := by
  have hstep : StepWithin g.knownNeighbours g.ids = StepWithin g.neighbours g.ids := by
    funext a b
    simp only [StepWithin, knownNeighbours, List.mem_filter, List.contains_iff_mem, and_assoc,
      and_self]
  have hnodup : g.ids.Nodup := g.nodup_ids
  rw [mem_reach_iff hnodup, mem_reach_iff hnodup, hstep]

/-- The worklist for the units downstream gets empty, and holds their ids then. -/
theorem downstream_eq_traversal (g : UnitGraph) (id : String) (more : Nat) :
    let t := g.downstreamTraversal id ((g.dependents id).length + g.edgeCount + more)
    t.waiting = [] ∧ g.downstream id = (g.sorted.map (·.id)).filter (· ∈ t.entered) := by
  intro t
  obtain ⟨hwaiting, hentered⟩ := Traversal.ends_with_reach g.dependents g.nodup_ids
    (dependents_subset id) dependents_subset more
  refine ⟨hwaiting, List.filter_congr fun other _ => ?_⟩
  rw [Bool.eq_iff_iff, List.contains_iff_mem, decide_eq_true_eq]
  exact (hentered other).symm

/-- The worklist for the units that can be reached gets empty, and holds their ids then. -/
theorem reachable_eq_search (hid : id ∈ g.ids) (more : Nat) :
    let s := g.reachableSearch id (g.size + more)
    s.waiting = [] ∧ g.reachable id = g.sorted.filter (·.id ∈ s.found) := by
  intro s
  have hseeds : [id] ⊆ g.ids := fun other hother => List.mem_singleton.1 hother ▸ hid
  have hnodup : g.ids.Nodup := g.nodup_ids
  have hends := Search.ends_with_reach g.knownNeighbours hnodup hseeds knownNeighbours_subset more
  rw [length_ids] at hends
  obtain ⟨hwaiting, hfound⟩ := hends
  refine ⟨hwaiting, List.filter_congr fun unit _ => ?_⟩
  rw [Bool.eq_iff_iff, List.contains_iff_mem, decide_eq_true_eq, ← mem_reach_knownNeighbours_iff]
  exact (hfound unit.id).symm

/-! ### Both questions -/

/-- Downstream of a unit are exactly the units from which a path of dependencies leads to it that is
not empty. From it exactly those units can be reached to which modules and dependencies lead in any
mixture, itself included. Both are listed in build order, each unit once. The worklist for the first
ends after at most one turn for each edge and each direct dependent, that for the second after at
most one turn for each unit. -/
theorem questions_follow_paths (g : UnitGraph) (id : String) (hid : id ∈ g.ids) :
    (g.downstream id).Sublist (g.sorted.map (·.id)) ∧ (g.downstream id).Nodup ∧
    (∀ other, other ∈ g.downstream id ↔ TransGen (Names g.units) other id) ∧
    (g.reachable id).Sublist g.sorted ∧ (g.reachable id).Nodup ∧
    (∀ unit, unit ∈ g.reachable id ↔
      unit ∈ g.units ∧ ReflTransGen (Mentions g.units) id unit.id) ∧
    ∀ more,
      let t := g.downstreamTraversal id ((g.dependents id).length + g.edgeCount + more)
      let s := g.reachableSearch id (g.size + more)
      (t.waiting = [] ∧ g.downstream id = (g.sorted.map (·.id)).filter (· ∈ t.entered)) ∧
      s.waiting = [] ∧ g.reachable id = g.sorted.filter (·.id ∈ s.found) := by
  have hsorted : g.sorted.Nodup := g.nodup_sorted_ids.of_map
  refine ⟨List.filter_sublist, g.nodup_sorted_ids.filter _, fun _ => mem_downstream_iff_names,
    List.filter_sublist, hsorted.filter _, fun _ => mem_reachable_iff_mentions, fun more => ?_⟩
  exact ⟨g.downstream_eq_traversal id more, reachable_eq_search hid more⟩

/-- Three units: `root` and `lib` group `app`, which groups `root` in turn and depends on `lib`. -/
def ring : UnitGraph where
  units := [
    { id := "root", modules := ["app"] },
    { id := "app", dependencies := [{ unit := "lib" }], modules := ["root"] },
    { id := "lib", modules := ["app"] }]
  sorted := [
    { id := "root", modules := ["app"] },
    { id := "lib", modules := ["app"] },
    { id := "app", dependencies := [{ unit := "lib" }], modules := ["root"] }]
  nodup_ids := by decide
  sorted_perm := .cons _ (.swap _ _ _)
  arranged := ⟨rfl, rfl, rfl, trivial⟩

/-- Modules lead from `lib` to the unit that depends on it, and on to all units. -/
theorem questions_of_ring : "lib" ∈ ring.ids ∧ ring.downstream "lib" = ["app"] ∧
    (ring.reachable "lib").map (·.id) = ["root", "lib", "app"] ∧
    TransGen (Names ring.units) "app" "lib" ∧
    ¬ TransGen (Names ring.units) "root" "lib" := by
  have hid : "lib" ∈ ring.ids := by decide
  have hdownstream : ring.downstream "lib" = ["app"] := by cbv
  have hreachable : (ring.reachable "lib").map (·.id) = ["root", "lib", "app"] := by cbv
  obtain ⟨-, -, hpaths, -⟩ := questions_follow_paths ring "lib" hid
  rw [hdownstream] at hpaths
  exact ⟨hid, hdownstream, hreachable, (hpaths "app").1 (by decide),
    mt (hpaths "root").2 (by decide)⟩

end PhasedBuild.UnitGraph
