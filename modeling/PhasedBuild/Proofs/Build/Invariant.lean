import PhasedBuild.Proofs.Build.Consistency
import PhasedBuild.Proofs.Build.Step

/-!
# What holds throughout a build

`BuildRun.Sound` ties the parts of a build together: the stage that is being built, its schedule,
the list that the coordinator goes through, and the lanes.

* `Sound.step`: every step keeps it, so it holds after any moves (`Sound.after`).
* `Sound.mem_ready`: the unit that the coordinator turns to is ready, although the list that it is
  taken from has been made earlier.
* `Session.sound_start`: a build of a session begins with it.
-/

namespace PhasedBuild.BuildRun

/-- A build of stages, in which nothing has gone astray. -/
structure Sound (rules : BuildRules) (stages : List Stage) (b : BuildRun) : Prop where
  cut : ∃ past, stages = past ++ b.stage :: b.rest
  consistent :
    b.schedule.Consistent rules.units b.stage.members (b.active.map (·.unit))
  /-- The units that are left of a list are still ready. -/
  listed : ∀ {listed : List String}, b.position = .walking listed →
    listed.Nodup ∧ ∀ id ∈ listed, id ∈ b.schedule.ready
  busy : b.position = .waiting → b.active ≠ []
  ended : b.position = .ended → b.active = [] ∧ b.schedule.pendingIds = []
  occupied_le : b.occupied ≤ rules.capacity

variable {rules : BuildRules} {stages : List Stage} {b b' : BuildRun}

/-! ### The lanes that are active -/

/-- Starting a unit makes its lane active besides those that are. -/
theorem active_start_perm (rules : BuildRules) (b : BuildRun) (id : String)
    (plan : ExecutionPlan) :
    (b.start rules id plan).active.Perm (b.laneFor rules id plan :: b.active) := by
  unfold start active note
  rw [List.append_assoc]
  exact List.perm_middle

/-- A lane that has delivered its result is active until the result is recorded. -/
theorem active_perm_of_delivered {lane : Lane} {released : Bool} {delivered : List (Lane × Bool)}
    (h : b.delivered = (lane, released) :: delivered) :
    b.active.Perm (lane :: { b with delivered }.active) := by
  unfold active
  rw [h, List.map_cons]
  exact List.perm_middle

/-- A lane whose result is there to be recorded is active. -/
theorem mem_active_of_delivered {lane : Lane} {released : Bool} {delivered : List (Lane × Bool)}
    (hdelivered : b.delivered = (lane, released) :: delivered) : lane ∈ b.active := by
  simp [active, hdelivered]

/-- A lane that works is active. -/
theorem mem_active_of_working {pre post : List Lane} {lane : Lane}
    (hworking : b.working = pre ++ lane :: post) : lane ∈ b.active := by
  simp [active, hworking]

/-- A lane among those that work is active besides all others. -/
theorem active_perm_of_working {pre post : List Lane} {lane : Lane}
    (h : b.working = pre ++ lane :: post) :
    b.active.Perm { b with
      working := pre ++ post
      delivered := b.delivered ++ [(lane, false)] }.active := by
  unfold active
  rw [h, List.map_append, List.map_singleton, ← List.append_assoc]
  refine .trans ?_ (List.perm_append_singleton _ _).symm
  rw [List.append_assoc]
  exact List.perm_middle.trans (.of_eq (by simp))

/-- When a lane does its next action, the lanes are what they were, apart from its own place. -/
theorem exists_same_of_act {pre post : List Lane} {lane other : Lane} {action : Action}
    (hworking : b.working = pre ++ lane :: post)
    (hother : other ∈ ({ b.note lane.unit action with
      working := pre ++ { lane with done := lane.done + 1 } :: post } : BuildRun).active) :
    ∃ same ∈ b.active, other = { same with done := other.done } := by
  simp only [active, note, List.mem_append, List.mem_cons] at hother
  rcases hother with (hpre | rfl | hpost) | hdelivered
  · exact ⟨other, by simp [active, hworking, hpre], rfl⟩
  · exact ⟨lane, mem_active_of_working hworking, rfl⟩
  · exact ⟨other, by simp [active, hworking, hpost], rfl⟩
  · exact ⟨other, List.mem_append_right _ hdelivered, rfl⟩

namespace Sound

/-- The stage that is being built is one of the stages. -/
theorem stage_mem (h : b.Sound rules stages) : b.stage ∈ stages := by
  obtain ⟨past, hcut⟩ := h.cut
  simp [hcut]

/-- The schedule has the units of the stage that is being built. -/
theorem schedule_ids (h : b.Sound rules stages) : b.schedule.ids = b.stage.ids :=
  h.consistent.ids_eq

/-- A unit that can be started belongs to the stage. -/
theorem mem_ids_of_mem_ready (h : b.Sound rules stages) {id : String}
    (hready : id ∈ b.schedule.ready) : id ∈ b.stage.ids :=
  h.schedule_ids ▸ Schedule.mem_ids_of_statusOf? (h.consistent.mem_ready_iff.1 hready).1

/-- A unit that is ready waits. -/
theorem mem_pendingIds_of_mem_ready (h : b.Sound rules stages) {id : String}
    (hready : id ∈ b.schedule.ready) : id ∈ b.schedule.pendingIds :=
  Schedule.mem_pendingIds_of_mem_ready h.consistent.nodup_ids hready

/-- A lane is active on units of the stage only. -/
theorem mem_ids_of_mem_active (h : b.Sound rules stages) {lane : Lane} (hlane : lane ∈ b.active) :
    lane.unit ∈ b.stage.ids := by
  rw [← h.schedule_ids]
  exact Schedule.mem_ids_of_statusOf?
    ((h.consistent.running_iff _).2 (List.mem_map_of_mem hlane))

/-- The stages that are left are not before the one that is being built. -/
theorem position_le (h : b.Sound rules stages)
    (hsorted : stages.Pairwise (·.position ≤ ·.position)) {stage : Stage}
    (hstage : stage ∈ b.rest) : b.stage.position ≤ stage.position := by
  obtain ⟨past, hcut⟩ := h.cut
  rw [hcut, List.pairwise_append, List.pairwise_cons] at hsorted
  exact hsorted.2.1.1 stage hstage

/-! ### Steps of lanes -/

/-- What lanes do to their own places and to the queue does not matter to the rest. -/
theorem of_lanes (h : b.Sound rules stages) (hstage : b'.stage = b.stage)
    (hrest : b'.rest = b.rest) (hschedule : b'.schedule = b.schedule)
    (hposition : b'.position = b.position)
    (hperm : (b.active.map (·.unit)).Perm (b'.active.map (·.unit)))
    (hoccupied : b'.occupied ≤ b.occupied) : b'.Sound rules stages where
  cut := by
    rw [hstage, hrest]
    exact h.cut
  consistent := by
    rw [hstage, hschedule]
    exact h.consistent.of_perm hperm
  listed := by
    rw [hposition, hschedule]
    exact h.listed
  busy := by
    intro hwaiting hnil
    rw [hnil, List.map_nil, List.perm_nil, List.map_eq_nil_iff] at hperm
    exact h.busy (hposition ▸ hwaiting) hperm
  ended := by
    intro hended
    obtain ⟨hactive, hpending⟩ := h.ended (hposition ▸ hended)
    rw [hactive, List.map_nil, List.nil_perm, List.map_eq_nil_iff] at hperm
    exact ⟨hperm, hschedule ▸ hpending⟩
  occupied_le := Nat.le_trans hoccupied h.occupied_le

/-- An action of a lane changes neither the schedule nor who is active. -/
theorem act (h : b.Sound rules stages) {pre post : List Lane} {lane : Lane} {action : Action}
    (hworking : b.working = pre ++ lane :: post) :
    ({ b.note lane.unit action with
      working := pre ++ { lane with done := lane.done + 1 } :: post } : BuildRun).Sound
        rules stages := by
  refine h.of_lanes rfl rfl rfl rfl (.of_eq ?_) (Nat.le_of_eq ?_)
  · simp [active, note, hworking]
  · simp [occupied, note, hworking]

/-- A lane that delivers its result stays active, and no place is free yet. -/
theorem deliver (h : b.Sound rules stages) {pre post : List Lane} {lane : Lane}
    (hworking : b.working = pre ++ lane :: post) :
    ({ b with
      working := pre ++ post
      delivered := b.delivered ++ [(lane, false)] } : BuildRun).Sound rules stages := by
  refine h.of_lanes rfl rfl rfl rfl ((active_perm_of_working hworking).map _) (Nat.le_of_eq ?_)
  simp only [occupied, hworking, List.length_append, List.length_cons, List.countP_append,
    List.countP_singleton, Bool.not_false, if_true]
  omega

/-- A lane that gives its place back stays active until its result is recorded. -/
theorem release (h : b.Sound rules stages) {pre post : List (Lane × Bool)} {lane : Lane}
    {released : Bool} (hdelivered : b.delivered = pre ++ (lane, released) :: post) :
    ({ b with delivered := pre ++ (lane, true) :: post } : BuildRun).Sound rules stages := by
  refine h.of_lanes rfl rfl rfl rfl (.of_eq ?_) ?_
  · simp [active, hdelivered]
  · simp [occupied, hdelivered, List.countP_cons]

/-! ### Steps of the coordinator -/

/-- The coordinator may go on to where it is allowed to go. -/
theorem onward (h : b.Sound rules stages) {position : Position} (hstep : Onward rules b position) :
    ({ b with position } : BuildRun).Sound rules stages where
  cut := h.cut
  consistent := h.consistent
  listed := by
    rintro listed rfl
    cases hstep with
    | list => exact ⟨Schedule.nodup_ready h.consistent.nodup_ids, fun _ hid => hid⟩
    | full => exact ⟨.nil, fun _ hid => absurd hid List.not_mem_nil⟩
  busy := by
    rintro rfl
    cases hstep with
    | await _ hactive => exact hactive
  ended := by
    rintro rfl
    cases hstep with
    | leave _ hready hactive =>
      refine ⟨hactive, ?_⟩
      have hconsistent := h.consistent
      rw [hactive] at hconsistent
      by_contra hpending
      exact hconsistent.ready_ne_nil hpending hready
  occupied_le := h.occupied_le

/-- The units that are left of a list are ready after the first one has been dealt with. -/
theorem listed_mark (h : b.Sound rules stages) {id : String} {rest : List String}
    (hposition : b.position = .walking (id :: rest)) (status : UnitStatus) :
    rest.Nodup ∧ ∀ other ∈ rest, other ∈ (b.schedule.mark id status).ready := by
  obtain ⟨hnodup, hready⟩ := h.listed hposition
  obtain ⟨hnot, hnodup⟩ := List.nodup_cons.1 hnodup
  refine ⟨hnodup, fun other hother => ?_⟩
  refine h.consistent.mem_ready_mark (hready id List.mem_cons_self)
    (hready other (List.mem_cons_of_mem _ hother)) ?_
  rintro rfl
  exact hnot hother

/-- The unit that the coordinator turns to is ready. -/
theorem mem_ready (h : b.Sound rules stages) {id : String} {rest : List String}
    (hposition : b.position = .walking (id :: rest)) : id ∈ b.schedule.ready :=
  (h.listed hposition).2 id List.mem_cons_self

/-- No lane works on that unit. -/
theorem notMem_active (h : b.Sound rules stages) {id : String} {rest : List String}
    (hposition : b.position = .walking (id :: rest)) : id ∉ b.active.map (·.unit) :=
  h.consistent.notMem_of_pending (h.consistent.mem_ready_iff.1 (h.mem_ready hposition)).1

/-- That unit does not wait any more once its status changes. -/
theorem pendingIds_perm_mark (h : b.Sound rules stages) {id : String} {rest : List String}
    (hposition : b.position = .walking (id :: rest)) {status : UnitStatus}
    (hstatus : status ≠ .pending) :
    b.schedule.pendingIds.Perm (id :: (b.schedule.mark id status).pendingIds) := by
  exact Schedule.pendingIds_perm_mark h.consistent.nodup_ids
    (h.mem_pendingIds_of_mem_ready (h.mem_ready hposition)) hstatus

/-- The units that wait then are others, and they have waited before. -/
theorem ne_and_mem_of_mem_pendingIds_mark (h : b.Sound rules stages) {id other : String}
    {rest : List String} (hposition : b.position = .walking (id :: rest)) {status : UnitStatus}
    (hstatus : status ≠ .pending) (hother : other ∈ (b.schedule.mark id status).pendingIds) :
    other ≠ id ∧ other ∈ b.schedule.pendingIds := by
  have hperm := h.pendingIds_perm_mark hposition hstatus
  have hnodup := hperm.nodup_iff.1 (Schedule.nodup_pendingIds h.consistent.nodup_ids)
  refine ⟨?_, hperm.mem_iff.2 (List.mem_cons_of_mem _ hother)⟩
  rintro rfl
  exact (List.nodup_cons.1 hnodup).1 hother

/-- A result of a lane leaves the units that wait as they are. -/
theorem pendingIds_mark_of_delivered (h : b.Sound rules stages) {lane : Lane} {released : Bool}
    {delivered : List (Lane × Bool)} (hdelivered : b.delivered = (lane, released) :: delivered) :
    (b.schedule.mark lane.unit lane.ending.status).pendingIds = b.schedule.pendingIds := by
  have hmem : lane.unit ∈ b.active.map (·.unit) := by
    rw [((active_perm_of_delivered hdelivered).map _).mem_iff]
    exact List.mem_cons_self
  refine Schedule.pendingIds_mark_of_notMem ?_ lane.ending.status_ne_pending
  rw [Schedule.mem_pendingIds_iff h.consistent.nodup_ids, (h.consistent.running_iff _).2 hmem]
  simp

/-- A unit that is refused has come to its end without a lane, so the units that are active are
still those that run. -/
theorem refuse (h : b.Sound rules stages) {id : String} {rest : List String} (ending : Ending)
    (plans : UnitPlans) (hposition : b.position = .walking (id :: rest)) :
    ({ b.close rules id ending with plans, position := .walking rest } : BuildRun).Sound
      rules stages where
  cut := h.cut
  consistent := h.consistent.refuse (h.mem_ready hposition) ending.isTerminal_status
  listed := by
    rintro listed heq
    obtain rfl := Position.walking.inj heq
    exact h.listed_mark hposition _
  busy := by
    rintro ⟨⟩
  ended := by
    rintro ⟨⟩
  occupied_le := h.occupied_le

/-- A unit that is started gets a lane of its own, and there was room for it. -/
theorem start (h : b.Sound rules stages) {id : String} {rest : List String} (plan : ExecutionPlan)
    (hposition : b.position = .walking (id :: rest)) (hroom : b.occupied < rules.capacity) :
    ({ b.start rules id plan with position := .walking rest } : BuildRun).Sound rules stages where
  cut := h.cut
  consistent := by
    have hperm := (active_start_perm rules b id plan).map (·.unit)
    exact (h.consistent.start (h.mem_ready hposition)).of_perm hperm.symm
  listed := by
    rintro listed heq
    obtain rfl := Position.walking.inj heq
    exact h.listed_mark hposition _
  busy := by
    rintro ⟨⟩
  ended := by
    rintro ⟨⟩
  occupied_le := by
    simp only [occupied, BuildRun.start, note, List.length_append, List.length_singleton]
    unfold occupied at hroom
    omega

/-- Recording the result of a lane ends its unit and frees the lane. -/
theorem record (h : b.Sound rules stages) {lane : Lane} {released : Bool}
    {delivered : List (Lane × Bool)} (hdelivered : b.delivered = (lane, released) :: delivered) :
    ({ b with delivered }.record rules lane).Sound rules stages where
  cut := h.cut
  consistent := by
    have hperm := (active_perm_of_delivered hdelivered).map (·.unit)
    exact (h.consistent.of_perm hperm).finish lane.ending.isTerminal_status
  listed := by
    rintro listed ⟨⟩
  busy := by
    rintro ⟨⟩
  ended := by
    rintro ⟨⟩
  occupied_le := by
    refine Nat.le_trans ?_ h.occupied_le
    simp only [occupied, BuildRun.record, close, note, hdelivered, List.countP_cons]
    omega

/-- The next stage begins with units that all wait, and no lane is active. -/
theorem enter (hlineup : Lineup rules.units stages) (h : b.Sound rules stages) {stage : Stage}
    {rest : List Stage} (hposition : b.position = .ended) (hrest : b.rest = stage :: rest) :
    (b.enter rules stage rest).Sound rules stages where
  cut := by
    obtain ⟨past, hcut⟩ := h.cut
    exact ⟨past ++ [b.stage], by simp [hcut, hrest, BuildRun.enter]⟩
  consistent := by
    obtain ⟨past, hcut⟩ := h.cut
    have hmem : stage ∈ stages := by simp [hcut, hrest]
    have hactive : (b.enter rules stage rest).active = [] := (h.ended hposition).1
    rw [hactive]
    exact .ofMembers (hlineup.fits stage hmem)
  listed := by
    rintro listed ⟨⟩
  busy := by
    rintro ⟨⟩
  ended := by
    rintro ⟨⟩
  occupied_le := h.occupied_le

/-! ### Any moves -/

/-- No step of the coordinator breaks the invariant. -/
theorem advance (hlineup : Lineup rules.units stages) (h : b.Sound rules stages)
    (hstep : Advance rules b b') : b'.Sound rules stages := by
  cases hstep with
  | onward hstep => exact h.onward hstep
  | refuse hposition _ => exact h.refuse _ _ hposition
  | start hposition _ _ hroom => exact h.start _ hposition hroom
  | record _ hdelivered => exact h.record hdelivered
  | enter hposition hrest => exact h.enter hlineup hposition hrest

/-- Every step keeps a build sound. -/
theorem step (hlineup : Lineup rules.units stages) (h : b.Sound rules stages)
    (hstep : Step rules b b') : b'.Sound rules stages := by
  cases hstep with
  | idle => exact h
  | advance hstep => exact h.advance hlineup hstep
  | act hworking _ => exact h.act hworking
  | deliver hworking _ _ => exact h.deliver hworking
  | release hdelivered => exact h.release hdelivered

/-- A sound build stays sound, whatever the moves are. -/
theorem after (hlineup : Lineup rules.units stages) (h : b.Sound rules stages)
    (moves : List Move) : (b.after rules moves).Sound rules stages :=
  after_induction (fun hb hstep => hb.step hlineup hstep) h moves

end Sound

end PhasedBuild.BuildRun

namespace PhasedBuild.Session

variable (s : Session) (work : Work) (segments : List Segment)

/-- A build of segments after moves: whatever the moves are, this is a moment of some build. -/
abbrev buildAfter (moves : List BuildRun.Move) : BuildRun :=
  (s.start segments).after (s.rules work) moves

/-- A build of a session begins as a sound one. -/
theorem sound_start :
    (s.start segments).Sound (s.rules work) ({} :: s.stages {} 0 segments) where
  cut := ⟨[], rfl⟩
  consistent := .ofMembers ((s.lineup segments).fits _ List.mem_cons_self)
  listed := by
    rintro listed ⟨⟩
  busy := by
    rintro ⟨⟩
  ended := fun _ => ⟨rfl, rfl⟩
  occupied_le := Nat.zero_le _

/-- Nothing has gone astray at any moment of a build. -/
theorem sound_buildAfter (moves : List BuildRun.Move) :
    (s.buildAfter work segments moves).Sound (s.rules work) ({} :: s.stages {} 0 segments) :=
  (s.sound_start work segments).after (s.lineup segments) moves

end PhasedBuild.Session
