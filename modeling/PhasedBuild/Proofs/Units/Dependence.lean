import Mathlib.Data.List.Nodup
import PhasedBuild.Proofs.Closure
import PhasedBuild.Units.Graph

/-!
# How units depend on each other

`UnitGraph.DependsOn` is the relation that the questions of a unit graph are about: one unit depends
on another directly or through others.

* `mem_downstream_iff`: `downstream` lists the units that depend on a unit.
* `mem_reachable_iff`: `reachable` lists the units that modules and dependencies lead to.
* `rank_lt_of_mem_prerequisites`: a prerequisite stands before its unit in build order, so no unit
  depends on itself (`not_dependsOn_self`).
-/

namespace PhasedBuild

open Relation

/-- Each unit of an arranged list is ready when those before it are placed. -/
theorem Arranged.isReady {placed : List String} {pre post : List BuildUnit} {unit : BuildUnit} :
    Arranged placed (pre ++ unit :: post) → unit.isReady (placed ++ pre.map (·.id)) = true := by
  induction pre generalizing placed with
  | nil =>
    intro h
    simpa using h.1
  | cons first pre ih =>
    intro h
    simpa using ih h.2

namespace UnitGraph

variable (g : UnitGraph)

/-- A unit depends on another one directly or through others. -/
def DependsOn (id other : String) : Prop :=
  TransGen (fun a b => b ∈ g.prerequisites a) id other

variable {g} {id other : String}

/-! ### Units and ids -/

/-- There is one id for each unit. -/
theorem length_ids : g.ids.length = g.size :=
  List.length_map _

/-- No unit comes twice in build order. -/
theorem nodup_sorted_ids : (g.sorted.map (·.id)).Nodup :=
  (g.sorted_perm.map _).nodup_iff.2 g.nodup_ids

/-- The units in build order are the units of the graph. -/
theorem mem_sorted_ids_iff : id ∈ g.sorted.map (·.id) ↔ id ∈ g.ids :=
  (g.sorted_perm.map _).mem_iff

/-- A unit is known by its id. -/
theorem eq_of_mem_units {unit unit' : BuildUnit} (h : unit ∈ g.units) (h' : unit' ∈ g.units)
    (hid : unit.id = unit'.id) : unit = unit' :=
  List.inj_on_of_nodup_map g.nodup_ids h h' hid

/-- A unit is found for its id. -/
theorem get?_eq_some_iff {unit : BuildUnit} :
    g.get? id = some unit ↔ unit ∈ g.units ∧ unit.id = id := by
  constructor
  · intro h
    exact ⟨List.mem_of_find?_eq_some h, by simpa using List.find?_some h⟩
  · rintro ⟨hmem, rfl⟩
    have hsome : (g.get? unit.id).isSome := List.find?_isSome.2 ⟨unit, hmem, by simp⟩
    obtain ⟨found, hfound⟩ := Option.isSome_iff_exists.1 hsome
    have hid : found.id = unit.id := by simpa using List.find?_some hfound
    rw [hfound, eq_of_mem_units (List.mem_of_find?_eq_some hfound) hmem hid]

/-- A unit is found exactly for the ids of the graph. -/
theorem get?_isSome_iff : (g.get? id).isSome ↔ id ∈ g.ids := by
  simp [get?, ids, List.find?_isSome]

/-! ### Direct dependencies -/

/-- The prerequisites of a unit are those that it declares as dependencies. -/
theorem mem_prerequisites_iff :
    other ∈ g.prerequisites id ↔
      ∃ unit ∈ g.units, unit.id = id ∧
        ∃ dependency ∈ unit.dependencies, dependency.unit = other := by
  unfold prerequisites
  cases h : g.get? id with
  | none =>
    have hnone : ∀ unit ∈ g.units, unit.id ≠ id := by
      intro unit hmem hid
      rw [get?_eq_some_iff.2 ⟨hmem, hid⟩] at h
      cases h
    constructor
    · intro hmem
      cases hmem
    · rintro ⟨unit, hmem, hid, -⟩
      exact absurd hid (hnone unit hmem)
  | some unit =>
    obtain ⟨hmem, hid⟩ := get?_eq_some_iff.1 h
    have hpre : other ∈ unit.prerequisites ↔
        ∃ dependency ∈ unit.dependencies, dependency.unit = other := by
      simp [BuildUnit.prerequisites]
    constructor
    · intro hother
      exact ⟨unit, hmem, hid, hpre.1 hother⟩
    · rintro ⟨unit', hmem', hid', hdep⟩
      obtain rfl := eq_of_mem_units hmem' hmem (hid'.trans hid.symm)
      exact hpre.2 hdep

/-- The edges from dependents mirror those to prerequisites. -/
theorem mem_dependents_iff : id ∈ g.dependents other ↔ other ∈ g.prerequisites id := by
  rw [mem_prerequisites_iff]
  simp only [dependents, List.mem_map, List.mem_filter, List.any_eq_true, beq_iff_eq]
  constructor
  · rintro ⟨unit, ⟨hmem, hdep⟩, hid⟩
    exact ⟨unit, hmem, hid, hdep⟩
  · rintro ⟨unit, hmem, hid, hdep⟩
    exact ⟨unit, ⟨hmem, hdep⟩, hid⟩

/-- Only units have prerequisites. -/
theorem mem_ids_of_mem_prerequisites (h : other ∈ g.prerequisites id) : id ∈ g.ids := by
  obtain ⟨unit, hmem, rfl, -⟩ := mem_prerequisites_iff.1 h
  exact List.mem_map_of_mem hmem

/-! ### The units that depend on a unit -/

/-- The units that depend on a unit are listed by `downstream`, and only these. -/
theorem mem_downstream_iff : id ∈ g.downstream other ↔ g.DependsOn id other := by
  have hback : (fun a b => a ∈ g.prerequisites b) = fun a b => b ∈ g.dependents a := by
    funext a b
    exact propext mem_dependents_iff.symm
  have hdep : g.DependsOn id other ↔ TransGen (fun a b => b ∈ g.dependents a) other id := by
    rw [DependsOn, ← transGen_swap, ← hback]
  have hnodup : g.ids.Nodup := g.nodup_ids
  simp only [downstream, List.mem_filter, List.contains_iff_mem, mem_sorted_ids_iff,
    mem_reach_iff hnodup]
  rw [hdep, TransGen.head'_iff]
  constructor
  · rintro ⟨-, t, ht, -, hpath⟩
    exact ⟨t, ht, ReflTransGen.mono (fun _ _ h => h.1) _ _ hpath⟩
  · rintro ⟨t, ht, hpath⟩
    have hmem : ∀ {a b}, b ∈ g.dependents a → b ∈ g.ids := fun h =>
      mem_ids_of_mem_prerequisites (mem_dependents_iff.1 h)
    have hwithin := ReflTransGen.mono
      (fun _ _ h => (⟨h, hmem h⟩ : StepWithin g.dependents g.ids _ _)) _ _ hpath
    refine ⟨?_, t, ht, hmem ht, hwithin⟩
    rcases hpath.cases_tail with rfl | ⟨_, -, hlast⟩
    · exact hmem ht
    · exact hmem hlast

/-! ### Modules and dependencies -/

variable (g) in
/-- Modules and dependencies lead from one unit to another, or both are the same. -/
def LeadsTo (id other : String) : Prop :=
  ReflTransGen (fun a b => b ∈ g.neighbours a) id other

/-- Only units have neighbours. -/
theorem mem_ids_of_mem_neighbours (h : other ∈ g.neighbours id) : id ∈ g.ids := by
  unfold neighbours at h
  cases hget : g.get? id with
  | none =>
    rw [hget] at h
    cases h
  | some unit => exact get?_isSome_iff.1 (by rw [hget]; rfl)

/-- A path between units passes units only. -/
theorem LeadsTo.within (h : g.LeadsTo id other) (hother : other ∈ g.ids) :
    id ∈ g.ids ∧ ReflTransGen (StepWithin g.neighbours g.ids) id other := by
  induction h using ReflTransGen.head_induction_on with
  | refl => exact ⟨hother, .refl⟩
  | head hstep _ ih => exact ⟨mem_ids_of_mem_neighbours hstep, .head ⟨hstep, ih.1⟩ ih.2⟩

/-- The units that modules and dependencies lead to are those listed by `reachable`. -/
theorem mem_reachable_iff {unit : BuildUnit} :
    unit ∈ g.reachable id ↔ unit ∈ g.units ∧ g.LeadsTo id unit.id := by
  have hnodup : g.ids.Nodup := g.nodup_ids
  simp only [reachable, List.mem_filter, List.contains_iff_mem, g.sorted_perm.mem_iff,
    mem_reach_iff hnodup, List.mem_singleton]
  refine and_congr_right fun hunit => ?_
  constructor
  · rintro ⟨_, rfl, -, hpath⟩
    exact ReflTransGen.mono (fun _ _ h => h.1) _ _ hpath
  · intro h
    obtain ⟨hid, hpath⟩ := h.within (List.mem_map_of_mem hunit)
    exact ⟨id, rfl, hid, hpath⟩

/-! ### Build order -/

variable (g) in
/-- The position of a unit in build order. -/
def rank (id : String) : Nat :=
  (g.sorted.map (·.id)).idxOf id

/-- The rank of a unit is the number of those before it in build order. -/
theorem rank_of_sorted_eq {pre post : List BuildUnit} {unit : BuildUnit}
    (h : g.sorted = pre ++ unit :: post) : g.rank unit.id = pre.length := by
  have hnodup := g.nodup_sorted_ids
  rw [h, List.map_append, List.map_cons, List.nodup_append] at hnodup
  have hnot : unit.id ∉ pre.map (·.id) := fun hmem =>
    hnodup.2.2 _ hmem _ List.mem_cons_self rfl
  rw [rank, h, List.map_append, List.map_cons, List.idxOf_append_of_notMem hnot]
  simp

/-- Units before another in build order have smaller ranks. -/
theorem rank_lt_of_mem_pre {pre post : List BuildUnit} {unit : BuildUnit}
    (h : g.sorted = pre ++ unit :: post) (hid : id ∈ pre.map (·.id)) :
    g.rank id < g.rank unit.id := by
  rw [rank_of_sorted_eq h, rank, h, List.map_append, List.idxOf_append_of_mem hid]
  simpa using List.idxOf_lt_length_iff.2 hid

/-- The unit at a position of the build order has that rank. -/
theorem rank_getElem {i : Nat} (hi : i < g.sorted.length) : g.rank g.sorted[i].id = i := by
  have hlength : i < (g.sorted.map (·.id)).length := by rwa [List.length_map]
  simpa [rank] using g.nodup_sorted_ids.idxOf_getElem i hlength

/-- Ranks increase in build order. -/
theorem pairwise_rank : g.sorted.Pairwise fun a b => g.rank a.id < g.rank b.id := by
  rw [List.pairwise_iff_getElem]
  intro i j hi hj hlt
  rwa [rank_getElem hi, rank_getElem hj]

/-- What stands in build order stands there once. -/
theorem nodup_of_pairwise_rank {ids : List String}
    (h : ids.Pairwise fun a b => g.rank a < g.rank b) : ids.Nodup := by
  refine h.imp fun {a b} hlt heq => ?_
  rw [heq] at hlt
  exact Nat.lt_irrefl _ hlt

/-- The prerequisites of a unit stand before it in build order. -/
theorem mem_pre_of_mem_prerequisites {pre post : List BuildUnit} {unit : BuildUnit}
    (h : g.sorted = pre ++ unit :: post) (hother : other ∈ g.prerequisites unit.id) :
    other ∈ pre.map (·.id) := by
  obtain ⟨unit', hmem', hid', dependency, hdep, rfl⟩ := mem_prerequisites_iff.1 hother
  have hmem : unit ∈ g.units := g.sorted_perm.mem_iff.1 (by simp [h])
  obtain rfl := eq_of_mem_units hmem' hmem hid'
  have hready := Arranged.isReady (h ▸ g.arranged)
  rw [BuildUnit.isReady, List.all_eq_true] at hready
  simpa using hready dependency hdep

/-- Prerequisites have smaller ranks. -/
theorem rank_lt_of_mem_prerequisites (h : other ∈ g.prerequisites id) :
    g.rank other < g.rank id := by
  obtain ⟨unit, hunit, rfl⟩ :=
    List.mem_map.1 (mem_sorted_ids_iff.2 (mem_ids_of_mem_prerequisites h))
  obtain ⟨pre, post, hsplit⟩ := List.append_of_mem hunit
  exact rank_lt_of_mem_pre hsplit (mem_pre_of_mem_prerequisites hsplit h)

/-- Prerequisites are units of the graph. -/
theorem mem_ids_of_prerequisite (h : other ∈ g.prerequisites id) : other ∈ g.ids := by
  obtain ⟨unit, hunit, rfl⟩ :=
    List.mem_map.1 (mem_sorted_ids_iff.2 (mem_ids_of_mem_prerequisites h))
  obtain ⟨pre, post, hsplit⟩ := List.append_of_mem hunit
  have hpre := mem_pre_of_mem_prerequisites hsplit h
  rw [← mem_sorted_ids_iff, hsplit, List.map_append]
  exact List.mem_append_left _ hpre

/-- Whatever a unit depends on, directly or not, has a smaller rank. -/
theorem DependsOn.rank_lt (h : g.DependsOn id other) : g.rank other < g.rank id := by
  induction h with
  | single hstep => exact rank_lt_of_mem_prerequisites hstep
  | tail _ hstep ih => exact Nat.lt_trans (rank_lt_of_mem_prerequisites hstep) ih

/-- No unit depends on itself. -/
theorem not_dependsOn_self : ¬ g.DependsOn id id :=
  fun h => Nat.lt_irrefl _ h.rank_lt

end UnitGraph

/-- Two units, the first of which groups the second one. -/
def UnitGraph.duo : UnitGraph where
  units := [{ id := "root", modules := ["app"] }, { id := "app" }]
  sorted := [{ id := "root", modules := ["app"] }, { id := "app" }]
  nodup_ids := by decide
  sorted_perm := .refl _
  arranged := ⟨rfl, rfl, trivial⟩

end PhasedBuild
