import Mathlib.Data.List.Nodup
import PhasedBuild.Build.Schedule
import PhasedBuild.Proofs.Units.Dependence

/-!
# Reading a schedule

A schedule is read through `Schedule.statusOf?`, the status of an id. Marking changes one status
(`statusOf?_mark_self`, `statusOf?_mark_of_ne`) and never the `Schedule.shape`: which units there
are and what they wait for.

* `mem_ready_iff`: a unit is ready if it is pending and its prerequisites have come to an end.
* `pendingIds_perm_mark`: giving a pending unit another status takes it from the pending ones.
-/

namespace PhasedBuild.Schedule

variable {s : Schedule} {id other : String} {status : UnitStatus}

/-- The status of an id, if a unit of the schedule has it. -/
def statusOf? (s : Schedule) (id : String) : Option UnitStatus :=
  (s.get? id).map (·.status)

/-- The ids of the units. -/
def ids (s : Schedule) : List String :=
  s.units.map (·.id)

/-- What does not change while units are built. -/
def shape (s : Schedule) : List (String × List String) :=
  s.units.map fun unit => (unit.id, unit.prerequisites)

/-- The units that wait, in build order. -/
def pendingIds (s : Schedule) : List String :=
  (s.units.filter (·.status == .pending)).map (·.id)

/-! ### The units of a schedule -/

/-- The shape of a schedule has its units, in order. -/
theorem map_fst_shape : s.shape.map (·.1) = s.ids := by
  simp [shape, ids]

/-- Schedules of one shape have the same units. -/
theorem ids_eq_of_shape_eq {t : Schedule} (h : s.shape = t.shape) : s.ids = t.ids := by
  rw [← map_fst_shape, h, map_fst_shape]

/-- The units that have a status are those of the schedule. -/
theorem statusOf?_isSome_iff : (s.statusOf? id).isSome ↔ id ∈ s.ids := by
  simp [statusOf?, get?, ids, List.find?_isSome]

/-- A unit that has a status is in the schedule. -/
theorem mem_ids_of_statusOf? (h : s.statusOf? id = some status) : id ∈ s.ids :=
  statusOf?_isSome_iff.1 (h ▸ rfl)

/-- A unit in the schedule has a status. -/
theorem exists_statusOf? (h : id ∈ s.ids) : ∃ status, s.statusOf? id = some status :=
  Option.isSome_iff_exists.1 (statusOf?_isSome_iff.2 h)

/-- The status of an id is that of the unit with that id, for there is one such unit only. -/
theorem statusOf?_of_mem (hnodup : s.ids.Nodup) {unit : ScheduledUnit} (h : unit ∈ s.units) :
    s.statusOf? unit.id = some unit.status := by
  have hsome : (s.get? unit.id).isSome := List.find?_isSome.2 ⟨unit, h, by simp⟩
  obtain ⟨found, hfound⟩ := Option.isSome_iff_exists.1 hsome
  have hid : found.id = unit.id := by simpa using List.find?_some hfound
  have heq := List.inj_on_of_nodup_map hnodup (List.mem_of_find?_eq_some hfound) h hid
  rw [statusOf?, hfound, heq]
  rfl

/-- A unit counts as finished if its status is terminal, and also if it is not in the schedule at
all. -/
theorem isFinished_iff :
    s.isFinished id = true ↔ ∀ status, s.statusOf? id = some status → status.isTerminal = true := by
  cases h : s.get? id <;> simp [isFinished, statusOf?, h]

/-- A unit with a terminal status is finished. -/
theorem isFinished_of_statusOf? (h : s.statusOf? id = some status)
    (hterminal : status.isTerminal = true) : s.isFinished id = true := by
  rw [isFinished_iff]
  intro status' h'
  rw [h] at h'
  obtain rfl := Option.some.inj h'
  exact hterminal

/-! ### Marking -/

/-- Marking a unit changes neither the units nor what they wait for. -/
@[simp] theorem shape_mark : (s.mark id status).shape = s.shape := by
  simp only [shape, mark, List.map_map]
  refine List.map_congr_left fun unit _ => ?_
  simp only [Function.comp_apply]
  split <;> rfl

/-- Marking a unit changes no unit's id. -/
@[simp] theorem ids_mark : (s.mark id status).ids = s.ids :=
  ids_eq_of_shape_eq shape_mark

/-- Marking a unit changes that unit's status only. -/
theorem get?_mark : (s.mark id status).get? other =
    (s.get? other).map fun unit => if unit.id = id then { unit with status } else unit := by
  have hid : ∀ unit : ScheduledUnit,
      (if unit.id = id then { unit with status } else unit).id = unit.id := by
    intro unit
    split <;> rfl
  simp only [get?, mark, List.find?_map, Function.comp_def, hid]

/-- A unit that is marked has the status with which it is marked. -/
theorem statusOf?_mark_self (h : id ∈ s.ids) : (s.mark id status).statusOf? id = some status := by
  obtain ⟨unit, hunit⟩ := Option.isSome_iff_exists.1 (List.find?_isSome.2
    (by simpa [ids] using h : ∃ unit ∈ s.units, (unit.id == id) = true))
  have hid : unit.id = id := by simpa using List.find?_some hunit
  rw [statusOf?, get?_mark, get?, hunit]
  simp [hid]

/-- Marking a unit leaves the status of every other. -/
theorem statusOf?_mark_of_ne (h : other ≠ id) :
    (s.mark id status).statusOf? other = s.statusOf? other := by
  rw [statusOf?, get?_mark, statusOf?]
  cases hget : s.get? other with
  | none => rfl
  | some unit =>
    have hid : unit.id = other := by simpa using List.find?_some hget
    simp [hid, h]

/-- Marking keeps what is finished finished, unless it says otherwise of that very unit. -/
theorem isFinished_mark (h : s.isFinished other = true)
    (hstatus : other = id → status.isTerminal = true) :
    (s.mark id status).isFinished other = true := by
  rw [isFinished_iff] at h ⊢
  intro status' h'
  by_cases hid : other = id
  · subst hid
    rw [statusOf?_mark_self (by simpa using mem_ids_of_statusOf? h')] at h'
    obtain rfl := Option.some.inj h'
    exact hstatus rfl
  · rw [statusOf?_mark_of_ne hid] at h'
    exact h status' h'

/-- With the end of a unit one more is finished. -/
theorem isFinished_mark_iff (hid : id ∈ s.ids) (hstatus : status.isTerminal = true) :
    (s.mark id status).isFinished other = true ↔ other = id ∨ s.isFinished other = true := by
  by_cases hother : other = id
  · subst hother
    have hself : (s.mark other status).statusOf? other = some status := statusOf?_mark_self hid
    have hfinished := isFinished_of_statusOf? hself hstatus
    exact iff_of_true hfinished (.inl rfl)
  · rw [isFinished_iff, isFinished_iff, statusOf?_mark_of_ne hother]
    exact (or_iff_right hother).symm

/-- With the start of a unit no more are finished. -/
theorem isFinished_mark_running_iff (hid : s.statusOf? id = some .pending) :
    (s.mark id .running).isFinished other = true ↔ s.isFinished other = true := by
  by_cases hother : other = id
  · subst hother
    have hself : (s.mark other .running).statusOf? other = some .running :=
      statusOf?_mark_self (mem_ids_of_statusOf? hid)
    rw [isFinished_iff, isFinished_iff, hself, hid]
    simp [UnitStatus.isTerminal]
  · rw [isFinished_iff, isFinished_iff, statusOf?_mark_of_ne hother]

/-! ### Units that can be started -/

/-- A unit can be started exactly if it waits and all of its prerequisites in the schedule are
finished. -/
theorem mem_ready_iff (hnodup : s.ids.Nodup) :
    id ∈ s.ready ↔ s.statusOf? id = some .pending ∧
      ∀ prerequisites, (id, prerequisites) ∈ s.shape →
        ∀ d ∈ prerequisites, s.isFinished d = true := by
  simp only [ready, List.mem_map, List.mem_filter, Bool.and_eq_true, beq_iff_eq, List.all_eq_true]
  constructor
  · rintro ⟨unit, ⟨hunit, hstatus, hfinished⟩, rfl⟩
    refine ⟨by rw [statusOf?_of_mem hnodup hunit, hstatus], ?_⟩
    intro prerequisites hshape
    obtain ⟨unit', hunit', heq⟩ := List.mem_map.1 hshape
    obtain ⟨hid, rfl⟩ := Prod.mk.inj heq
    obtain rfl := List.inj_on_of_nodup_map hnodup hunit' hunit hid
    exact hfinished
  · rintro ⟨hstatus, hfinished⟩
    obtain ⟨unit, hunit, rfl⟩ := List.mem_map.1 (mem_ids_of_statusOf? hstatus)
    rw [statusOf?_of_mem hnodup hunit] at hstatus
    exact ⟨unit, ⟨hunit, Option.some.inj hstatus,
      hfinished _ (List.mem_map.2 ⟨unit, hunit, rfl⟩)⟩, rfl⟩

/-- No unit can be started twice at once. -/
theorem nodup_ready (hnodup : s.ids.Nodup) : s.ready.Nodup :=
  hnodup.sublist (List.filter_sublist.map _)

/-! ### Pending units -/

/-- The pending units are those whose status says so. -/
theorem mem_pendingIds_iff (hnodup : s.ids.Nodup) :
    id ∈ s.pendingIds ↔ s.statusOf? id = some .pending := by
  simp only [pendingIds, List.mem_map, List.mem_filter, beq_iff_eq]
  constructor
  · rintro ⟨unit, ⟨hunit, hstatus⟩, rfl⟩
    rw [statusOf?_of_mem hnodup hunit, hstatus]
  · intro h
    obtain ⟨unit, hunit, rfl⟩ := List.mem_map.1 (mem_ids_of_statusOf? h)
    rw [statusOf?_of_mem hnodup hunit] at h
    exact ⟨unit, ⟨hunit, Option.some.inj h⟩, rfl⟩

/-- No unit is pending twice. -/
theorem nodup_pendingIds (hnodup : s.ids.Nodup) : s.pendingIds.Nodup :=
  hnodup.sublist (List.filter_sublist.map _)

/-- A unit that can be started is pending. -/
theorem mem_pendingIds_of_mem_ready (hnodup : s.ids.Nodup) (h : id ∈ s.ready) :
    id ∈ s.pendingIds :=
  (mem_pendingIds_iff hnodup).2 ((mem_ready_iff hnodup).1 h).1

/-- A pending unit that gets another status is not pending any more; nothing else changes. -/
theorem pendingIds_perm_mark (hnodup : s.ids.Nodup) (h : id ∈ s.pendingIds)
    (hstatus : status ≠ .pending) : s.pendingIds.Perm (id :: (s.mark id status).pendingIds) := by
  have hnodup' : (s.mark id status).ids.Nodup := by rwa [ids_mark]
  have hself : (s.mark id status).statusOf? id = some status :=
    statusOf?_mark_self (mem_ids_of_statusOf? ((mem_pendingIds_iff hnodup).1 h))
  have hnot : id ∉ (s.mark id status).pendingIds := by
    intro hmem
    rw [mem_pendingIds_iff hnodup', hself] at hmem
    exact hstatus (Option.some.inj hmem)
  refine (List.perm_ext_iff_of_nodup (nodup_pendingIds hnodup)
    (List.nodup_cons.2 ⟨hnot, nodup_pendingIds hnodup'⟩)).2 fun other => ?_
  by_cases hid : other = id
  · subst hid
    simp [h]
  · rw [List.mem_cons, mem_pendingIds_iff hnodup, mem_pendingIds_iff hnodup',
      statusOf?_mark_of_ne hid]
    simp [hid]

/-- The pending units stay when a unit that is not pending gets another status. -/
theorem pendingIds_mark_of_notMem (h : id ∉ s.pendingIds) (hstatus : status ≠ .pending) :
    (s.mark id status).pendingIds = s.pendingIds := by
  unfold pendingIds mark at *
  rw [List.filter_map, List.map_map]
  have hcomp : ∀ unit ∈ s.units,
      ((fun unit : ScheduledUnit => unit.status == .pending) ∘ fun unit : ScheduledUnit =>
        if unit.id = id then { unit with status } else unit) unit = (unit.status == .pending) := by
    intro unit hunit
    by_cases hid : unit.id = id
    · have hpending : unit.status ≠ .pending := by
        intro hpending
        exact h (List.mem_map.2 ⟨unit, List.mem_filter.2 ⟨hunit, by simp [hpending]⟩, hid⟩)
      simp [hid, hstatus, hpending]
    · simp [hid]
  rw [List.filter_congr hcomp]
  refine List.map_congr_left fun unit _ => ?_
  simp only [Function.comp_apply]
  split <;> rfl

/-! ### Schedules of members -/

variable (g : UnitGraph) (members : List BuildUnit)

/-- The schedule of some members has their ids, in the same order. -/
@[simp] theorem ids_ofMembers : (ofMembers g members).ids = members.map (·.id) := by
  simp [ids, ofMembers]

/-- A member waits for those of its prerequisites that are members too. -/
theorem mem_shape_ofMembers_iff {prerequisites : List String} :
    (id, prerequisites) ∈ (ofMembers g members).shape ↔
      id ∈ members.map (·.id) ∧
        prerequisites = (g.prerequisites id).filter (members.map (·.id)).contains := by
  simp only [shape, ofMembers, List.map_map, List.mem_map, Function.comp_apply, Prod.mk.injEq]
  constructor
  · rintro ⟨unit, hunit, rfl, rfl⟩
    exact ⟨⟨unit, hunit, rfl⟩, rfl⟩
  · rintro ⟨⟨unit, hunit, rfl⟩, rfl⟩
    exact ⟨unit, hunit, rfl, rfl⟩

/-- In the beginning all members wait. -/
theorem statusOf?_ofMembers (h : id ∈ members.map (·.id)) :
    (ofMembers g members).statusOf? id = some .pending := by
  obtain ⟨status, hstatus⟩ := exists_statusOf? (s := ofMembers g members) (by simpa using h)
  obtain ⟨unit, hunit, rfl⟩ := Option.map_eq_some_iff.1 hstatus
  obtain ⟨_, -, rfl⟩ := List.mem_map.1 (List.mem_of_find?_eq_some hunit)
  rw [hstatus]

/-- In the beginning all members are pending. -/
@[simp] theorem pendingIds_ofMembers : (ofMembers g members).pendingIds = members.map (·.id) := by
  simp [pendingIds, ofMembers, List.filter_map, Function.comp_def]

end PhasedBuild.Schedule
