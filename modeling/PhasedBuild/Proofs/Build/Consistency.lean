import Mathlib.Data.List.Perm.Basic
import PhasedBuild.Proofs.Build.Lineup
import PhasedBuild.Proofs.Build.Schedule

/-!
# Schedules that agree with the lanes

While a stage is built its schedule and the lanes that are active on its units go together:
`Schedule.Consistent`. The relation is kept when a ready unit is started (`Consistent.start`), when
a ready unit is closed (`Consistent.refuse`) and when an active one is (`Consistent.finish`).

* `Consistent.ready_ne_nil`: if no lane is active and a unit waits, then some unit is ready. The
  pending unit that stands first in build order has no prerequisite to wait for.
* `Consistent.isFinished_of_dependsOn`: whatever a ready or started unit depends on within the
  segment, directly or through others, has come to an end.
-/

namespace PhasedBuild.Schedule

open Relation

/-- The schedule of some members, while lanes are active on the units of some ids. -/
structure Consistent (g : UnitGraph) (members : List BuildUnit) (active : List String)
    (s : Schedule) : Prop where
  shape_eq : s.shape = (ofMembers g members).shape
  nodup_ids : s.ids.Nodup
  nodup_active : active.Nodup
  running_iff : ∀ id, s.statusOf? id = some .running ↔ id ∈ active
  /-- No unit leaves the pending ones before its direct prerequisites have come to an end. -/
  finished : ∀ {id : String} {status : UnitStatus}, s.statusOf? id = some status →
    status ≠ .pending → ∀ d ∈ g.prerequisites id, s.isFinished d = true

namespace Consistent

variable {g : UnitGraph} {members : List BuildUnit} {active : List String} {s : Schedule}
  {id other : String} {status : UnitStatus}

/-- The units of the schedule are the members, in the same order. -/
theorem ids_eq (h : s.Consistent g members active) : s.ids = members.map (·.id) := by
  rw [ids_eq_of_shape_eq h.shape_eq, ids_ofMembers]

/-- The schedule with which a stage begins. -/
theorem ofMembers {stage : Stage} (h : stage.Fits g) :
    (ofMembers g stage.members).Consistent g stage.members [] where
  shape_eq := rfl
  nodup_ids := by
    rw [ids_ofMembers]
    exact h.nodup_ids
  nodup_active := .nil
  running_iff := by
    intro id
    refine ⟨fun hrunning => ?_, fun hmem => absurd hmem List.not_mem_nil⟩
    have hid := mem_ids_of_statusOf? hrunning
    rw [ids_ofMembers] at hid
    rw [statusOf?_ofMembers g _ hid] at hrunning
    cases hrunning
  finished := by
    intro id status hstatus hpending
    have hid := mem_ids_of_statusOf? hstatus
    rw [ids_ofMembers] at hid
    rw [statusOf?_ofMembers g _ hid] at hstatus
    exact absurd (Option.some.inj hstatus).symm hpending

/-- The order in which the active units are listed does not matter. -/
theorem of_perm (h : s.Consistent g members active) {active' : List String}
    (hperm : active.Perm active') : s.Consistent g members active' where
  shape_eq := h.shape_eq
  nodup_ids := h.nodup_ids
  nodup_active := hperm.nodup_iff.1 h.nodup_active
  running_iff := fun id => (h.running_iff id).trans hperm.mem_iff
  finished := h.finished

/-! ### Ready units -/

/-- A unit is ready if it waits and its direct prerequisites have come to an end or take no part. -/
theorem mem_ready_iff (h : s.Consistent g members active) :
    id ∈ s.ready ↔ s.statusOf? id = some .pending ∧
      ∀ d ∈ g.prerequisites id, s.isFinished d = true := by
  rw [Schedule.mem_ready_iff h.nodup_ids, h.shape_eq]
  refine and_congr_right fun hpending => ?_
  have hid : id ∈ members.map (·.id) := h.ids_eq ▸ mem_ids_of_statusOf? hpending
  constructor
  · intro hfinished d hd
    by_cases hmem : d ∈ members.map (·.id)
    · refine hfinished _ ((mem_shape_ofMembers_iff g members).2 ⟨hid, rfl⟩) d ?_
      exact List.mem_filter.2 ⟨hd, by simpa using hmem⟩
    · -- what takes no part is not waited for
      rw [isFinished_iff]
      intro status hstatus
      exact absurd (h.ids_eq ▸ mem_ids_of_statusOf? hstatus) hmem
  · rintro hfinished prerequisites hshape d hd
    obtain ⟨-, rfl⟩ := (mem_shape_ofMembers_iff g members).1 hshape
    exact hfinished d (List.mem_filter.1 hd).1

/-- A unit that waits has not come to its end. -/
theorem not_isFinished_of_pending (h : s.statusOf? id = some .pending) :
    s.isFinished id ≠ true := by
  intro hfinished
  have := isFinished_iff.1 hfinished _ h
  cases this

/-- No lane is active on a unit that waits. -/
theorem notMem_of_pending (h : s.Consistent g members active)
    (hid : s.statusOf? id = some .pending) : id ∉ active := by
  rw [← h.running_iff, hid]
  simp

/-- Marking a pending unit leaves other ready units ready. -/
theorem mem_ready_mark (h : s.Consistent g members active) (hid : id ∈ s.ready)
    (hother : other ∈ s.ready) (hne : other ≠ id) : other ∈ (s.mark id status).ready := by
  rw [h.mem_ready_iff] at hid hother
  rw [Schedule.mem_ready_iff (by rw [ids_mark]; exact h.nodup_ids), shape_mark, h.shape_eq]
  refine ⟨by rw [statusOf?_mark_of_ne hne]; exact hother.1, ?_⟩
  rintro prerequisites hshape d hd
  obtain ⟨-, rfl⟩ := (mem_shape_ofMembers_iff g members).1 hshape
  have hfinished := hother.2 d (List.mem_filter.1 hd).1
  refine isFinished_mark hfinished ?_
  rintro rfl
  exact absurd hfinished (not_isFinished_of_pending hid.1)

/-! ### Marking -/

/-- Marking the unit of an id whose prerequisites have come to an end. -/
private theorem mark_aux (h : s.Consistent g members active) {active' : List String}
    (hactive' : active'.Nodup) (hid : id ∈ s.ids)
    (hfinished : ∀ d ∈ g.prerequisites id, s.isFinished d = true)
    (hself : s.isFinished id = true → status.isTerminal = true)
    (hrunning : status = .running ↔ id ∈ active')
    (hothers : ∀ other ≠ id, other ∈ active ↔ other ∈ active') :
    (s.mark id status).Consistent g members active' where
  shape_eq := by rw [shape_mark, h.shape_eq]
  nodup_ids := by
    rw [ids_mark]
    exact h.nodup_ids
  nodup_active := hactive'
  running_iff := by
    intro other
    by_cases hne : other = id
    · subst hne
      rw [statusOf?_mark_self hid, Option.some.injEq, hrunning]
    · rw [statusOf?_mark_of_ne hne, h.running_iff, hothers other hne]
  finished := by
    intro other status' hstatus' hpending' d hd
    have hold : s.isFinished d = true := by
      by_cases hne : other = id
      · subst hne
        exact hfinished d hd
      · rw [statusOf?_mark_of_ne hne] at hstatus'
        exact h.finished hstatus' hpending' d hd
    refine isFinished_mark hold ?_
    rintro rfl
    exact hself hold

/-- A ready unit is started. -/
theorem start (h : s.Consistent g members active) (hid : id ∈ s.ready) :
    (s.mark id .running).Consistent g members (id :: active) := by
  obtain ⟨hpending, hfinished⟩ := h.mem_ready_iff.1 hid
  have hnot := h.notMem_of_pending hpending
  refine h.mark_aux (List.nodup_cons.2 ⟨hnot, h.nodup_active⟩) (mem_ids_of_statusOf? hpending)
    hfinished ?_ (by simp) ?_
  · exact fun hself => absurd hself (not_isFinished_of_pending hpending)
  · intro other hne
    simp [hne]

/-- A ready unit is brought to an end without being started. -/
theorem refuse (h : s.Consistent g members active) (hid : id ∈ s.ready)
    (hstatus : status.isTerminal = true) : (s.mark id status).Consistent g members active := by
  obtain ⟨hpending, hfinished⟩ := h.mem_ready_iff.1 hid
  have hnot := h.notMem_of_pending hpending
  refine h.mark_aux h.nodup_active (mem_ids_of_statusOf? hpending) hfinished
    (fun _ => hstatus) ?_ (fun _ _ => Iff.rfl)
  · refine ⟨?_, fun hmem => absurd hmem hnot⟩
    rintro rfl
    cases hstatus

/-- An active unit is brought to an end. -/
theorem finish (h : s.Consistent g members (id :: active)) (hstatus : status.isTerminal = true) :
    (s.mark id status).Consistent g members active := by
  have hrunning : s.statusOf? id = some .running := (h.running_iff id).2 List.mem_cons_self
  obtain ⟨hnot, hnodup⟩ := List.nodup_cons.1 h.nodup_active
  refine h.mark_aux hnodup (mem_ids_of_statusOf? hrunning) (h.finished hrunning (by simp))
    (fun _ => hstatus) ?_ ?_
  · refine ⟨?_, fun hmem => absurd hmem hnot⟩
    rintro rfl
    cases hstatus
  · intro other hne
    simp [hne]

/-! ### Progress and order -/

/-- If no lane is active, each unit waits or has come to an end. -/
theorem isFinished_of_notMem_pendingIds (h : s.Consistent g members [])
    (hid : id ∉ s.pendingIds) : s.isFinished id = true := by
  rw [isFinished_iff]
  intro status hstatus
  cases status with
  | pending => exact absurd ((mem_pendingIds_iff h.nodup_ids).2 hstatus) hid
  | running => exact absurd ((h.running_iff id).1 hstatus) List.not_mem_nil
  | succeeded => rfl
  | failed _ => rfl
  | skipped _ => rfl

/-- A unit that waits and is not ready depends on one that is ready or that a lane is active on. -/
theorem exists_dependsOn_of_notMem_ready (h : s.Consistent g members active)
    (hid : id ∈ s.pendingIds) (hnot : id ∉ s.ready) :
    ∃ other ∈ s.ids, g.DependsOn id other ∧ (other ∈ s.ready ∨ other ∈ active) := by
  -- a unit that waits for a pending one passes on what that one waits for
  induction hn : g.rank id using Nat.strongRecOn generalizing id with
  | ind n ih =>
    obtain ⟨d, hd, hunfinished⟩ : ∃ d ∈ g.prerequisites id, s.isFinished d ≠ true := by
      by_contra hall
      push Not at hall
      exact hnot (h.mem_ready_iff.2 ⟨(mem_pendingIds_iff h.nodup_ids).1 hid, hall⟩)
    rw [Ne, isFinished_iff] at hunfinished
    push Not at hunfinished
    obtain ⟨status, hstatus, hterminal⟩ := hunfinished
    have hmem := mem_ids_of_statusOf? hstatus
    cases status with
    | pending =>
      have hpending := (mem_pendingIds_iff h.nodup_ids).2 hstatus
      by_cases hready : d ∈ s.ready
      · exact ⟨d, hmem, .single hd, .inl hready⟩
      · have hlt := UnitGraph.rank_lt_of_mem_prerequisites hd
        obtain ⟨other, hother, hdep, hcase⟩ := ih _ (hn ▸ hlt) hpending hready rfl
        exact ⟨other, hother, .head hd hdep, hcase⟩
    | running => exact ⟨d, hmem, .single hd, .inr ((h.running_iff d).1 hstatus)⟩
    | succeeded => exact absurd rfl hterminal
    | failed _ => exact absurd rfl hterminal
    | skipped _ => exact absurd rfl hterminal

/-- If no lane is active and a unit waits, then a unit is ready. -/
theorem ready_ne_nil (h : s.Consistent g members []) (hpending : s.pendingIds ≠ []) :
    s.ready ≠ [] := by
  obtain ⟨id, hid⟩ := List.exists_mem_of_ne_nil _ hpending
  by_cases hready : id ∈ s.ready
  · exact List.ne_nil_of_mem hready
  · obtain ⟨other, -, -, hother | hother⟩ := h.exists_dependsOn_of_notMem_ready hid hready
    · exact List.ne_nil_of_mem hother
    · cases hother

/-- Whatever a ready or started unit depends on within the stage has come to an end. -/
theorem isFinished_of_dependsOn {stage : Stage} (hfits : stage.Fits g)
    (h : s.Consistent g stage.members active)
    (hid : id ∈ s.ready ∨ ∃ status, s.statusOf? id = some status ∧ status ≠ .pending)
    (hother : other ∈ stage.ids) (hdep : g.DependsOn id other) : s.isFinished other = true := by
  have hmem : id ∈ stage.ids := by
    rw [Stage.ids, ← h.ids_eq]
    rcases hid with hready | ⟨status, hstatus, -⟩
    · exact mem_ids_of_statusOf? (h.mem_ready_iff.1 hready).1
    · exact mem_ids_of_statusOf? hstatus
  have hdirect : ∀ d ∈ g.prerequisites id, s.isFinished d = true := by
    rcases hid with hready | ⟨status, hstatus, hpending⟩
    · exact (h.mem_ready_iff.1 hready).2
    · exact h.finished hstatus hpending
  have hpath := hfits.path_within hmem hother hdep
  clear hid hmem hdep
  induction hpath using TransGen.head_induction_on with
  | single hstep => exact hdirect _ hstep.1
  | head hstep _ ih =>
    refine ih fun d hd => ?_
    have hids : s.ids = stage.ids := h.ids_eq
    obtain ⟨status, hstatus⟩ := exists_statusOf? (hids ▸ hstep.2)
    have hterminal := isFinished_iff.1 (hdirect _ hstep.1) status hstatus
    refine h.finished hstatus ?_ d hd
    rintro rfl
    cases hterminal

end Consistent

end PhasedBuild.Schedule
