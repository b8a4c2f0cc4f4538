import Mathlib.Data.List.Nodup
import PhasedBuild.Build.Coordinator
import PhasedBuild.Proofs.Units.Dependence

/-!
# The stages of a session

A list of stages can be built if its stages fit the units of the build and come one after the other.

* `Stage.Fits`: the members of a stage stand in build order, and where one of them depends on
  another there is a path of direct dependencies between members.
* `Lineup`: the stages fit, and no unit takes part twice in one segment.
* `Session.lineup`: the stages of a session are a lineup, whatever its segments are.
-/

namespace PhasedBuild

open Relation

namespace Stage

/-- What a stage has to do with the units of the build. -/
structure Fits (g : UnitGraph) (s : Stage) : Prop where
  sublist : s.members.Sublist g.sorted
  path_within : ∀ {id other : String}, id ∈ s.ids → other ∈ s.ids → g.DependsOn id other →
    TransGen (fun a b => b ∈ g.prerequisites a ∧ b ∈ s.ids) id other

variable {g : UnitGraph} {s : Stage}

/-- No unit stands twice in a stage. -/
theorem Fits.nodup_ids (h : s.Fits g) : s.ids.Nodup :=
  g.nodup_sorted_ids.sublist (h.sublist.map _)

/-- The units of a stage are units of the build. -/
theorem Fits.mem_ids {id : String} (h : s.Fits g) (hid : id ∈ s.ids) : id ∈ g.ids :=
  UnitGraph.mem_sorted_ids_iff.1 ((h.sublist.map _).subset hid)

/-- A stage in which all units take part fits. -/
theorem fits_of_members_eq_sorted (h : s.members = g.sorted) : s.Fits g where
  sublist := h ▸ List.Sublist.refl _
  path_within := by
    intro id other _ _ hdep
    refine TransGen.mono (fun a b hab => ⟨hab, ?_⟩) _ _ hdep
    rw [ids, h]
    exact UnitGraph.mem_sorted_ids_iff.2 (UnitGraph.mem_ids_of_prerequisite hab)

/-- A stage in which at most one unit takes part fits, for no unit depends on itself. -/
theorem fits_of_length_le_one (hsub : s.members.Sublist g.sorted) (h : s.members.length ≤ 1) :
    s.Fits g where
  sublist := hsub
  path_within := by
    intro id other hid hother hdep
    have hlen : s.ids.length ≤ 1 := by rwa [ids, List.length_map]
    have heq : id = other := by
      obtain ⟨unit, hunit⟩ := List.length_eq_one_iff.1
        (Nat.le_antisymm hlen (List.length_pos_of_mem hid))
      rw [hunit, List.mem_singleton] at hid hother
      rw [hid, hother]
    exact absurd (heq ▸ hdep) UnitGraph.not_dependsOn_self

/-- The parts of a stage are its units at its position. -/
theorem mem_pairs_iff {id : String} {segment : Nat} :
    (id, segment) ∈ s.pairs ↔ id ∈ s.ids ∧ segment = s.position := by
  simp [pairs, eq_comm]

/-- No part comes twice in a stage. -/
theorem Fits.nodup_pairs (h : s.Fits g) : s.pairs.Nodup :=
  h.nodup_ids.map fun _ _ heq => (Prod.mk.inj heq).1

end Stage

/-- What a list of stages has to be to be built from the first to the last. -/
structure Lineup (g : UnitGraph) (stages : List Stage) : Prop where
  fits : ∀ stage ∈ stages, stage.Fits g
  /-- A stage in which no unit takes part may stand anywhere. -/
  ordered : stages.Pairwise fun stage later =>
    stage.members ≠ [] → stage.position < later.position
  nodup_pairs : (stages.flatMap Stage.pairs).Nodup

namespace Session

variable (s : Session)

/-- The units that take part in segments, each with the position of its segment. -/
def parts (segments : List Segment) : List (String × Nat) :=
  segments.zipIdx.flatMap fun (segment, position) =>
    (s.workspace.members segment).map fun unit => (unit.id, position)

/-- The parts of the stages are the members of the segments, each with the position of its
segment. -/
theorem flatMap_pairs_stages (log : PlanningLog) (position : Nat) (segments : List Segment) :
    (s.stages log position segments).flatMap Stage.pairs =
      (segments.zipIdx position).flatMap fun (segment, position) =>
        (s.workspace.members segment).map fun unit => (unit.id, position) := by
  induction segments generalizing log position with
  | nil => rfl
  | cons segment rest ih =>
    rw [stages, List.flatMap_cons, ih, List.zipIdx_cons, List.flatMap_cons]
    simp [Stage.pairs, Stage.ids]

/-- A stage of the members of a segment has to do with units of the build only, in build order. -/
theorem fits_members {stage : Stage} {segment : Segment}
    (h : stage.members = s.workspace.members segment) : stage.Fits s.units := by
  unfold Workspace.members at h
  split at h
  next =>
    cases hroot : s.workspace.units.get? s.workspace.root with
    | none =>
      rw [hroot] at h
      exact Stage.fits_of_length_le_one (by simp [h]) (by simp [h])
    | some unit =>
      rw [hroot] at h
      have hunit : unit ∈ s.units.sorted :=
        s.units.sorted_perm.mem_iff.2 (UnitGraph.get?_eq_some_iff.1 hroot).1
      exact Stage.fits_of_length_le_one (by simpa [h] using hunit) (by simp [h])
  next => exact Stage.fits_of_members_eq_sorted h

/-- A stage of a session is one of its segments. -/
theorem exists_of_mem_stages {log : PlanningLog} {position : Nat} {segments : List Segment}
    {stage : Stage} (h : stage ∈ s.stages log position segments) :
    position ≤ stage.position ∧ ∃ log', ∃ segment ∈ segments,
      segments[stage.position - position]? = some segment ∧
      stage.members = s.workspace.members segment ∧ stage.plans = (s.plans log' segment).1 := by
  induction segments generalizing log position with
  | nil => cases h
  | cons segment rest ih =>
    rcases List.mem_cons.1 h with rfl | h
    · exact ⟨Nat.le_refl _, log, segment, List.mem_cons_self, by simp, rfl, rfl⟩
    · obtain ⟨hle, log', other, hother, hindex, hmembers, hplans⟩ := ih h
      refine ⟨Nat.le_of_succ_le hle, log', other, List.mem_cons_of_mem _ hother, ?_, hmembers,
        hplans⟩
      rw [show stage.position - position = stage.position - (position + 1) + 1 by omega]
      exact hindex

/-- Later stages have greater positions. -/
theorem pairwise_stages (log : PlanningLog) (position : Nat) (segments : List Segment) :
    (s.stages log position segments).Pairwise (·.position < ·.position) := by
  induction segments generalizing log position with
  | nil => exact .nil
  | cons segment rest ih =>
    refine .cons (fun stage hstage => ?_) (ih _ _)
    exact (s.exists_of_mem_stages hstage).1

/-- The stages of a session can be built, after a stage in which no unit takes part. -/
theorem lineup (segments : List Segment) : Lineup s.units ({} :: s.stages {} 0 segments) where
  fits := by
    intro stage hstage
    rcases List.mem_cons.1 hstage with rfl | hstage
    · exact Stage.fits_of_length_le_one (List.nil_sublist _) (Nat.zero_le _)
    · obtain ⟨-, _, _, -, -, hmembers, -⟩ := s.exists_of_mem_stages hstage
      exact s.fits_members hmembers
  ordered := by
    refine .cons (fun _ _ hmembers => absurd rfl hmembers) ?_
    refine (s.pairwise_stages _ _ _).imp ?_
    intro stage later hlt _
    exact hlt
  nodup_pairs := by
    rw [List.flatMap_cons]
    refine List.nodup_flatMap.2 ⟨?_, ?_⟩
    · intro stage hstage
      obtain ⟨-, _, _, -, -, hmembers, -⟩ := s.exists_of_mem_stages hstage
      exact (s.fits_members hmembers).nodup_pairs
    · refine (s.pairwise_stages _ _ _).imp fun hlt => ?_
      rintro ⟨id, segment⟩ hmem hmem'
      rw [Stage.mem_pairs_iff] at hmem hmem'
      omega

/-- The units that take part in the stages of a session are those of its segments. -/
theorem flatMap_pairs_eq_parts (segments : List Segment) :
    (({} : Stage) :: s.stages {} 0 segments).flatMap Stage.pairs = s.parts segments := by
  rw [List.flatMap_cons, s.flatMap_pairs_stages]
  rfl

/-- No part comes twice in a build. -/
theorem nodup_parts (segments : List Segment) : (s.parts segments).Nodup := by
  rw [← s.flatMap_pairs_eq_parts]
  exact (s.lineup segments).nodup_pairs

end Session

/-- Two units, the second of which depends on the first. -/
def UnitGraph.pair : UnitGraph where
  units := [{ id := "core" }, { id := "app", dependencies := [{ unit := "core" }] }]
  sorted := [{ id := "core" }, { id := "app", dependencies := [{ unit := "core" }] }]
  nodup_ids := by decide
  sorted_perm := .refl _
  arranged := ⟨rfl, rfl, trivial⟩

/-- A session of two units, the second of which depends on the first, without any plugins. -/
def Session.ofPair (policy : FailurePolicy) : Session where
  workspace := { units := .pair, root := "core", contains_root := rfl }
  planner := {}
  settings := { policy }

end PhasedBuild
