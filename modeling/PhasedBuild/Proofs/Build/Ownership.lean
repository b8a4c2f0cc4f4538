import PhasedBuild.Proofs.Build.Invariant
import PhasedBuild.Proofs.Keyed

/-!
# Who has the state of a unit

The state of a unit is kept by the build while nobody works on the unit. A lane that is started on
it takes the state along, and what the lane has made of it is put back when the result of the lane
is recorded.

* `BuildRun.recorded`: the lanes whose results are recorded in the course of moves.
* `BuildUnit.stateAfter`: what the last of such lanes has left of a unit.
* `BuildRun.Owned`: each state is kept by the build or has been taken along by one lane, and it is
  what the lanes before have left (`Session.owned_buildAfter`).
-/

namespace PhasedBuild

/-- The state in which the last of the lanes that worked on a unit has left it; if there is none,
the one that the unit has before anything has been done. -/
def BuildUnit.stateAfter (unit : BuildUnit) (lanes : List Lane) : UnitState :=
  match (lanes.filter (·.unit = unit.id)).getLast? with
  | some lane => lane.work.state
  | none => .ofUnit unit

/-- One more lane leaves the state of its own unit and no other. -/
theorem BuildUnit.stateAfter_concat (unit : BuildUnit) (lanes : List Lane) (lane : Lane) :
    unit.stateAfter (lanes ++ [lane]) =
      if lane.unit = unit.id then lane.work.state else unit.stateAfter lanes := by
  unfold stateAfter
  rw [List.filter_append]
  split_ifs with h
  · simp [h]
  · simp [h]

namespace BuildRun

variable {rules : BuildRules} {stages : List Stage} {b b' : BuildRun}

/-! ### Lanes whose results are recorded -/

/-- The lane whose result the coordinator records in a move, if it does. -/
def recordedBy? (b : BuildRun) (move : Move) : Option Lane :=
  if move = .coordinate ∧ b.position = .waiting then (b.delivered.head?).map (·.1) else none

/-- The lanes whose results are recorded in the course of moves, in order. -/
def recorded (rules : BuildRules) (b : BuildRun) : List Move → List Lane
  | [] => []
  | move :: moves => (b.recordedBy? move).toList ++ (b.next rules move).recorded rules moves

/-- A move in which the result of a lane is recorded is one of the coordinator, and the lane was the
first of those that had delivered. -/
theorem next_of_recordedBy? (rules : BuildRules) {move : Move} {lane : Lane}
    (h : b.recordedBy? move = some lane) :
    ∃ released delivered, b.delivered = (lane, released) :: delivered ∧
      b.next rules move = ({ b with delivered } : BuildRun).record rules lane := by
  unfold recordedBy? at h
  split at h
  next hmove =>
    obtain ⟨rfl, hposition⟩ := hmove
    obtain ⟨⟨lane', released⟩, hhead, rfl⟩ := Option.map_eq_some_iff.1 h
    obtain ⟨delivered, hdelivered⟩ := List.head?_eq_some_iff.1 hhead
    exact ⟨released, delivered, hdelivered, by simp [next, coordinate, hposition, hdelivered]⟩
  next => cases h

/-- Only the coordinator adds results. -/
theorem summary_next_of_ne (rules : BuildRules) (b : BuildRun) {move : Move}
    (h : move ≠ .coordinate) : (b.next rules move).summary = b.summary := by
  cases move with
  | coordinate => exact absurd rfl h
  | work i =>
    show (b.work rules i).summary = b.summary
    unfold work
    split
    next => rfl
    next =>
      split
      next => rfl
      next => split <;> rfl
  | release i => rfl

/-! ### Owners of states -/

/-- The states that lanes have taken along, each with its unit. -/
def lent (b : BuildRun) : List (String × UnitState) :=
  b.active.map fun lane => (lane.unit, lane.before)

/-- If the same states have been taken along, lanes are active on the same units. -/
theorem units_perm_of_lent (h : b'.lent.Perm b.lent) :
    (b'.active.map (·.unit)).Perm (b.active.map (·.unit)) := by
  have hmap := h.map (·.1)
  rwa [lent, lent, List.map_map, List.map_map] at hmap

/-- If the same states have been taken along, every active lane has one to match it. -/
theorem exists_same_of_lent (h : b'.lent.Perm b.lent) {lane : Lane} (hlane : lane ∈ b'.active) :
    ∃ same ∈ b.active, same.unit = lane.unit ∧ same.before = lane.before := by
  have hmem : (lane.unit, lane.before) ∈ b.lent :=
    h.mem_iff.1 (List.mem_map.2 ⟨lane, hlane, rfl⟩)
  obtain ⟨same, hsame, heq⟩ := List.mem_map.1 hmem
  exact ⟨same, hsame, Prod.mk.inj heq⟩

/-- A lane that does something keeps the state that it has taken along. -/
theorem lent_act {pre post : List Lane} {lane : Lane} {action : Action}
    (hworking : b.working = pre ++ lane :: post) :
    ({ b.note lane.unit action with
      working := pre ++ { lane with done := lane.done + 1 } :: post } : BuildRun).lent =
        b.lent := by
  simp [lent, active, note, hworking]

/-- A lane that gives its place back keeps the state that it has taken along. -/
theorem lent_release {pre post : List (Lane × Bool)} {lane : Lane} {released : Bool}
    (hdelivered : b.delivered = pre ++ (lane, released) :: post) :
    ({ b with delivered := pre ++ (lane, true) :: post } : BuildRun).lent = b.lent := by
  simp [lent, active, hdelivered]

/-- The state that is kept of a unit on which no lane works. -/
def keptState (b : BuildRun) (id : String) : UnitState :=
  (Keyed.find? id b.states).getD {}

/-- Each state of a unit is kept by the build or has been taken along by a lane, and it is what the
lanes of a history have left. -/
structure Owned (units : UnitGraph) (history : List Lane) (b : BuildRun) : Prop where
  sorted : Keyed.IsSorted b.states
  /-- What is kept is the state of a unit on which no lane works. -/
  kept : ∀ id state, Keyed.find? id b.states = some state →
    id ∉ b.active.map (·.unit) ∧ ∃ unit ∈ units.units, unit.id = id ∧
      state = unit.stateAfter history
  /-- The state of a unit on which no lane works is kept. -/
  idle : ∀ id ∈ units.ids, id ∉ b.active.map (·.unit) →
    (Keyed.find? id b.states).isSome = true
  lanes : ∀ lane ∈ b.active, ∃ unit ∈ units.units, unit.id = lane.unit ∧
    lane.before = unit.stateAfter history

namespace Owned

variable {units : UnitGraph} {history : List Lane}

/-- What lanes do to their own places and to the queue does not matter. -/
theorem of_lanes (h : b.Owned units history) (hstates : b'.states = b.states)
    (hlent : b'.lent.Perm b.lent) : b'.Owned units history := by
  have hunits := units_perm_of_lent hlent
  refine ⟨?_, ?_, ?_, ?_⟩
  · rw [hstates]
    exact h.sorted
  · intro id state hfind
    rw [hstates] at hfind
    rw [hunits.mem_iff]
    exact h.kept id state hfind
  · intro id hid hidle
    rw [hunits.mem_iff] at hidle
    rw [hstates]
    exact h.idle id hid hidle
  · intro lane hlane
    obtain ⟨same, hsame, hunit, hbefore⟩ := exists_same_of_lent hlent hlane
    rw [← hunit, ← hbefore]
    exact h.lanes same hsame

/-- A lane that is started takes along the state of its unit. -/
theorem of_start (h : b.Owned units history) (lane : Lane) (hid : lane.unit ∈ units.ids)
    (hidle : lane.unit ∉ b.active.map (·.unit)) (hbefore : lane.before = b.keptState lane.unit)
    (hstates : b'.states = Keyed.erase lane.unit b.states)
    (hactive : b'.active.Perm (lane :: b.active)) : b'.Owned units history := by
  have hunits : ∀ id,
      id ∈ b'.active.map (·.unit) ↔ id = lane.unit ∨ id ∈ b.active.map (·.unit) := by
    intro id
    rw [(hactive.map _).mem_iff, List.map_cons, List.mem_cons]
  refine ⟨?_, ?_, ?_, ?_⟩
  · rw [hstates]
    exact h.sorted.erase lane.unit
  · intro id state hfind
    rw [hstates] at hfind
    have hne : id ≠ lane.unit := by
      rintro rfl
      rw [Keyed.find?_erase_self] at hfind
      cases hfind
    rw [Keyed.find?_erase_of_ne hne] at hfind
    obtain ⟨hnot, hunit⟩ := h.kept id state hfind
    rw [hunits]
    exact ⟨not_or.2 ⟨hne, hnot⟩, hunit⟩
  · intro id hid' hnot
    rw [hunits, not_or] at hnot
    rw [hstates, Keyed.find?_erase_of_ne hnot.1]
    exact h.idle id hid' hnot.2
  · intro other hother
    rcases List.mem_cons.1 (hactive.mem_iff.1 hother) with rfl | hother
    · obtain ⟨state, hfind⟩ := Option.isSome_iff_exists.1 (h.idle other.unit hid hidle)
      obtain ⟨-, unit, hunit, heq, hstate⟩ := h.kept other.unit state hfind
      refine ⟨unit, hunit, heq, ?_⟩
      rw [hbefore, keptState, hfind, ← hstate]
      rfl
    · exact h.lanes other hother

/-- A lane whose result is recorded puts back what it has made of the state. -/
theorem of_record (h : b.Owned units history) (hnodup : (b.active.map (·.unit)).Nodup) {lane : Lane}
    (hstates : b'.states = Keyed.insert lane.unit lane.work.state b.states)
    (hactive : b.active.Perm (lane :: b'.active)) : b'.Owned units (history ++ [lane]) := by
  have hunits : (b.active.map (·.unit)).Perm (lane.unit :: b'.active.map (·.unit)) := hactive.map _
  obtain ⟨hgone, -⟩ := List.nodup_cons.1 (hunits.nodup_iff.1 hnodup)
  have hmem : ∀ id, id ≠ lane.unit →
      (id ∈ b'.active.map (·.unit) ↔ id ∈ b.active.map (·.unit)) := by
    intro id hne
    rw [hunits.mem_iff, List.mem_cons, or_iff_right hne]
  have hother : ∀ unit : BuildUnit, unit.id ≠ lane.unit →
      unit.stateAfter (history ++ [lane]) = unit.stateAfter history := by
    intro unit hne
    rw [unit.stateAfter_concat, if_neg (Ne.symm hne)]
  refine ⟨?_, ?_, ?_, ?_⟩
  · rw [hstates]
    exact h.sorted.insert lane.unit lane.work.state
  · intro id state hfind
    rw [hstates] at hfind
    by_cases hid : id = lane.unit
    · subst hid
      rw [Keyed.find?_insert_self] at hfind
      obtain ⟨unit, hunit, heq, -⟩ := h.lanes lane (hactive.mem_iff.2 List.mem_cons_self)
      refine ⟨hgone, unit, hunit, heq, ?_⟩
      rw [unit.stateAfter_concat, if_pos heq.symm]
      exact (Option.some.inj hfind).symm
    · rw [Keyed.find?_insert_of_ne hid] at hfind
      obtain ⟨hnot, unit, hunit, rfl, hstate⟩ := h.kept id state hfind
      rw [hmem _ hid]
      exact ⟨hnot, unit, hunit, rfl, hstate.trans (hother unit hid).symm⟩
  · intro id hid' hnot
    rw [hstates]
    by_cases hid : id = lane.unit
    · rw [hid, Keyed.find?_insert_self]
      rfl
    · rw [hmem _ hid] at hnot
      rw [Keyed.find?_insert_of_ne hid]
      exact h.idle id hid' hnot
  · intro other hother'
    have hne : other.unit ≠ lane.unit := by
      intro heq
      exact hgone (heq ▸ List.mem_map_of_mem hother')
    obtain ⟨unit, hunit, heq, hbefore⟩ :=
      h.lanes other (hactive.mem_iff.2 (List.mem_cons_of_mem _ hother'))
    refine ⟨unit, hunit, heq, ?_⟩
    rw [hother unit (heq ▸ hne)]
    exact hbefore

/-- A move hands states on. -/
theorem next (hlineup : Lineup rules.units stages) (hb : b.Sound rules stages)
    (h : b.Owned rules.units history) (move : Move) :
    (b.next rules move).Owned rules.units (history ++ (b.recordedBy? move).toList) := by
  cases hrecorded : b.recordedBy? move with
  | some lane =>
    obtain ⟨released, delivered, hdelivered, hnext⟩ := next_of_recordedBy? rules hrecorded
    rw [hnext]
    exact h.of_record hb.consistent.nodup_active rfl (active_perm_of_delivered hdelivered)
  | none =>
    rw [Option.toList_none, List.append_nil]
    have hstep := step_next rules b move
    generalize hb' : b.next rules move = b' at hstep ⊢
    cases hstep with
    | idle => exact h
    | advance hstep =>
      cases hstep with
      | onward _ => exact h.of_lanes rfl (.refl _)
      | refuse _ _ => exact h.of_lanes rfl (.refl _)
      | @start id rest plan hposition _ _ _ =>
        have hready := hb.mem_ready hposition
        have hid := (hlineup.fits _ hb.stage_mem).mem_ids (hb.mem_ids_of_mem_ready hready)
        have hactive := active_start_perm rules b id plan
        exact h.of_start (b.laneFor rules id plan) hid (hb.notMem_active hposition) rfl rfl hactive
      | record hposition hdelivered =>
        exfalso
        have hmove : move = .coordinate := by
          by_contra hne
          have hsummary := summary_next_of_ne rules b hne
          rw [hb'] at hsummary
          have htotal := congrArg BuildSummary.total hsummary
          exact Nat.succ_ne_self _ htotal
        rw [recordedBy?, if_pos ⟨hmove, hposition⟩, hdelivered] at hrecorded
        cases hrecorded
      | enter _ _ => exact h.of_lanes rfl (.refl _)
    | act hworking _ => exact h.of_lanes rfl (.of_eq (lent_act hworking))
    | deliver hworking _ _ =>
      exact h.of_lanes rfl ((active_perm_of_working hworking).map _).symm
    | release hdelivered => exact h.of_lanes rfl (.of_eq (lent_release hdelivered))

/-- Moves hand states on from lane to lane. -/
theorem after (hlineup : Lineup rules.units stages) (hb : b.Sound rules stages)
    (h : b.Owned rules.units history) (moves : List Move) :
    (b.after rules moves).Owned rules.units (history ++ b.recorded rules moves) := by
  induction moves generalizing b history with
  | nil =>
    rw [recorded, List.append_nil]
    exact h
  | cons move moves ih =>
    rw [recorded, ← List.append_assoc]
    exact ih (hb.step hlineup (step_next rules b move)) (h.next hlineup hb move)

/-- Every unit is once among those whose states are kept and those on which a lane works. -/
theorem perm (hnodup : (b.active.map (·.unit)).Nodup) (h : b.Owned units history) :
    (b.states.map (·.1) ++ b.active.map (·.unit)).Perm units.ids := by
  have hkey : ∀ id, id ∈ b.states.map (·.1) ↔ id ∈ units.ids ∧ id ∉ b.active.map (·.unit) := by
    intro id
    constructor
    · intro hid
      obtain ⟨state, hfind⟩ := Keyed.exists_find?_of_mem_keys hid
      obtain ⟨hnot, unit, hunit, rfl, -⟩ := h.kept id state hfind
      exact ⟨List.mem_map_of_mem hunit, hnot⟩
    · rintro ⟨hid, hnot⟩
      obtain ⟨state, hfind⟩ := Option.isSome_iff_exists.1 (h.idle id hid hnot)
      exact List.mem_map_of_mem (Keyed.mem_of_find? hfind)
  have hkeys : (b.states.map (·.1)).Nodup :=
    List.pairwise_map.2 (h.sorted.imp fun hlt => ne_of_lt hlt)
  refine (List.perm_ext_iff_of_nodup ?_ units.nodup_ids).2 fun id => ?_
  · refine List.nodup_append.2 ⟨hkeys, hnodup, ?_⟩
    rintro id hid other hother rfl
    exact ((hkey id).1 hid).2 hother
  · rw [List.mem_append, hkey]
    constructor
    · rintro (⟨hid, -⟩ | hactive)
      · exact hid
      · obtain ⟨lane, hlane, rfl⟩ := List.mem_map.1 hactive
        obtain ⟨unit, hunit, heq, -⟩ := h.lanes lane hlane
        exact heq ▸ List.mem_map_of_mem hunit
    · intro hid
      by_cases hactive : id ∈ b.active.map (·.unit)
      · exact .inr hactive
      · exact .inl ⟨hid, hactive⟩

end Owned

end BuildRun

namespace Session

variable (s : Session) (work : Work) (segments : List Segment)

/-- Before a build begins, the state of every unit is the one that its properties make. -/
theorem owned_start : (s.start segments).Owned s.units [] where
  sorted := Keyed.isSorted_ofList _
  kept := by
    intro id state hfind
    obtain ⟨unit, hunit, heq⟩ :=
      List.mem_map.1 (Keyed.mem_of_mem_ofList (Keyed.mem_of_find? hfind))
    obtain ⟨rfl, rfl⟩ := Prod.mk.inj heq
    exact ⟨List.not_mem_nil, unit, hunit, rfl, rfl⟩
  idle := by
    intro id hid _
    refine Keyed.isSome_find?_ofList ?_
    rw [List.map_map]
    exact hid
  lanes := fun _ hlane => absurd hlane List.not_mem_nil

/-- The lanes that have worked on units in a build, in the order in which their results have been
recorded. -/
def recordedAfter (moves : List BuildRun.Move) : List Lane :=
  (s.start segments).recorded (s.rules work) moves

/-- At every moment of a build each state has one owner, and it is what the lanes before have
left. -/
theorem owned_buildAfter (moves : List BuildRun.Move) :
    (s.buildAfter work segments moves).Owned s.units (s.recordedAfter work segments moves) :=
  (s.owned_start segments).after (s.lineup segments) (s.sound_start work segments) moves

end Session

end PhasedBuild
