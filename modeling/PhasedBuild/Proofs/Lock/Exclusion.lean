import PhasedBuild.Proofs.Lock.Crew
import PhasedBuild.Proofs.Lock.Slots
import PhasedBuild.Proofs.Units.Dependence

/-!
# Steps that exclude each other

What the locks of a build do for lanes that run side by side, whatever they run and however they
move:

* `LockTable.Modest`: no lane has the locks of more than one step, and none has the lock of a unit
  without a side of the aggregator lock.
* `Crew.Sound.exclusive`: no lane runs a step beside an aggregating one, and no two lanes run steps
  on one unit.
* `Crew.Sound.progress`: the lanes never wait for each other all at once. A lane that has all its
  locks can go on; if there is none, nobody has any side, and a lane that asks for one is only
  refused it because of a writer that waits, which would have got it.
* `Crew.steps_exclude_each_other` puts this together.
* `Crew.free_before_step`: between two steps a lane has none of the locks. That holds inside of
  forked work as well, so a list of forked steps is not kept together
  (`forked_work_is_interrupted`).
-/

namespace PhasedBuild

/-! ### What each lane holds -/

/-- Each lane holds nothing, or a side, or a side and the lock of one unit. -/
structure Hold.Single (holds : List Hold) : Prop where
  nodup : holds.Nodup
  eq_of_side : ∀ lane access other, .side lane access ∈ holds → .side lane other ∈ holds →
    access = other
  eq_of_unit : ∀ lane id other, .unit lane id ∈ holds → .unit lane other ∈ holds → id = other
  side_of_unit : ∀ lane id, .unit lane id ∈ holds → ∃ access, .side lane access ∈ holds

/-- No lane has the locks of more than one step, and none has the lock of a unit without a side of
the aggregator lock. -/
structure LockTable.Modest (t : LockTable) : Prop where
  writeDepth_le : t.aggregator.writeDepth ≤ 1
  depth_le_of_reader : ∀ r ∈ t.aggregator.readers, r.depth ≤ 1
  isWriter_of_isReader : ∀ lane, t.aggregator.isReader lane = true →
    t.aggregator.isWriter lane = false
  depth_le : ∀ id, (t.unitLock id).depth ≤ 1
  eq_of_holder : ∀ lane id other, (t.unitLock id).holder.map (·.lane) = some lane →
    (t.unitLock other).holder.map (·.lane) = some lane → id = other
  side_of_holder : ∀ lane id, (t.unitLock id).holder.map (·.lane) = some lane →
    t.aggregator.isReader lane = true ∨ t.aggregator.isWriter lane = true

/-- At most one element of a list without repetitions has a property that no two of them share. -/
theorem countP_le_one {α : Type} {p : α → Bool} {l : List α} (h : l.Nodup)
    (hp : ∀ a ∈ l, ∀ b ∈ l, p a → p b → a = b) : l.countP p ≤ 1 := by
  rw [List.countP_eq_length_filter]
  have hnodup := h.filter p
  have hmem : ∀ a ∈ l.filter p, a ∈ l ∧ p a := fun a => List.mem_filter.1
  generalize l.filter p = filtered at hnodup hmem
  rcases filtered with _ | ⟨a, _ | ⟨b, rest⟩⟩
  · exact Nat.zero_le _
  · exact Nat.le_refl _
  · obtain ⟨ha, hpa⟩ := hmem a List.mem_cons_self
    obtain ⟨hb, hpb⟩ := hmem b (List.mem_cons_of_mem _ List.mem_cons_self)
    have hne : a ≠ b := fun heq => (List.nodup_cons.1 hnodup).1 (heq ▸ List.mem_cons_self)
    exact absurd (hp a ha b hb hpa hpb) hne

namespace Hold

/-- What is held to write is the write side of the aggregator lock. -/
theorem eq_of_isWriting {hold : Hold} (h : hold.isWriting) : ∃ lane, hold = .side lane .write := by
  rcases hold with ⟨lane, _ | _⟩ | ⟨lane, other⟩
  · cases h
  · exact ⟨lane, rfl⟩
  · cases h

/-- What is held of a unit is the lock of that unit. -/
theorem eq_of_isOn {hold : Hold} {id : String} (h : hold.isOn id) :
    ∃ lane, hold = .unit lane id := by
  rcases hold with ⟨lane, access⟩ | ⟨lane, other⟩
  · cases h
  · exact ⟨lane, by rw [of_decide_eq_true h]⟩

end Hold

namespace LockTable.Accords

variable {t : LockTable} {holds : List Hold} {queued : Nat}

/-- The aggregator lock lists a lane among its readers exactly if the lane holds the read side. -/
theorem isReader_iff (h : t.Accords holds queued) {lane : Nat} :
    t.aggregator.isReader lane = true ↔ .side lane .read ∈ holds :=
  h.aggregator.isReader_iff.trans Hold.mem_sides_iff

/-- A lane that holds the write side is the writer of the aggregator lock. -/
theorem isWriter_of_mem (h : t.Accords holds queued) {lane : Nat}
    (hside : .side lane .write ∈ holds) : t.aggregator.isWriter lane = true := by
  obtain ⟨writer, hwriter, rfl⟩ := h.aggregator.exists_writer (Hold.mem_sides_iff.2 hside)
  simp [AggregatorLock.isWriter, hwriter]

/-- The writer of the aggregator lock holds the write side. -/
theorem mem_of_isWriter (h : t.Accords holds queued) {lane : Nat}
    (hlane : t.aggregator.isWriter lane = true) : .side lane .write ∈ holds := by
  cases hwriter : t.aggregator.writer with
  | none => simp [AggregatorLock.isWriter, hwriter] at hlane
  | some writer =>
    have hpos : 0 < t.aggregator.writeDepth := h.counts.isSome_writer.1 (by simp [hwriter])
    rw [h.counts.writeDepth_eq, List.countP_pos_iff] at hpos
    obtain ⟨hold, hhold, hwriting⟩ := hpos
    obtain ⟨other, rfl⟩ := Hold.eq_of_isWriting hwriting
    have hother : other = writer.lane :=
      h.aggregator.lane_eq writer hwriter _ (Hold.mem_sides_iff.2 hhold)
    have heq : writer.lane = lane := by simpa [AggregatorLock.isWriter, hwriter] using hlane
    exact heq ▸ hother ▸ hhold

/-- Where each lane holds what belongs to one step, the locks show no more. -/
theorem modest (h : t.Accords holds queued) (hsingle : Hold.Single holds) : t.Modest where
  writeDepth_le := by
    rw [h.counts.writeDepth_eq]
    refine countP_le_one hsingle.nodup fun hold hhold other hother hw hw' => ?_
    obtain ⟨lane, rfl⟩ := Hold.eq_of_isWriting hw
    obtain ⟨lane', rfl⟩ := Hold.eq_of_isWriting hw'
    rw [h.eq_of_write hhold hother]
  depth_le_of_reader r hr := by
    obtain ⟨-, hdepth⟩ := (h.counts.reader_iff r.owner.lane r.depth).1 ⟨r, hr, rfl, rfl⟩
    rw [← hdepth]
    exact List.nodup_iff_count_le_one.1 hsingle.nodup _
  isWriter_of_isReader lane hreader := by
    by_contra hwriter
    have heq := hsingle.eq_of_side lane _ _ (h.isReader_iff.1 hreader)
      (h.mem_of_isWriter (Bool.eq_true_of_not_eq_false hwriter))
    cases heq
  depth_le id := by
    rw [h.counts.depth_eq]
    refine countP_le_one hsingle.nodup fun hold hhold other hother hid hid' => ?_
    obtain ⟨lane, rfl⟩ := Hold.eq_of_isOn hid
    obtain ⟨lane', rfl⟩ := Hold.eq_of_isOn hid'
    rw [h.eq_of_unit hhold hother]
  eq_of_holder lane id other hid hother :=
    hsingle.eq_of_unit lane id other (h.holder_iff.1 hid) (h.holder_iff.1 hother)
  side_of_holder lane id hid := by
    obtain ⟨access, hside⟩ := hsingle.side_of_unit lane id (h.holder_iff.1 hid)
    cases access with
    | read => exact .inl (h.isReader_iff.2 hside)
    | write => exact .inr (h.isWriter_of_mem hside)

end LockTable.Accords

/-! ### Lanes beside each other -/

/-- The lane of a stance holds nothing, or a side, or a side and the lock of one unit. -/
theorem Stance.IsOf.holds_cases {lane : Nat} {stance : Stance} (h : stance.IsOf lane) :
    stance.holds = [] ∨ (∃ access, stance.holds = [.side lane access]) ∨
      ∃ id access, stance.holds = [.unit lane id, .side lane access] := by
  cases stance with
  | outside => exact .inl rfl
  | inside owner access => exact .inr (.inr ⟨owner.unit, access, by rw [← h]; rfl⟩)
  | leaving owner access => exact .inr (.inl ⟨access, by rw [← h]; rfl⟩)
  | asking owner access part quest =>
    obtain rfl := h
    by_cases hquest : quest = .admitted
    · cases part with
      | side => exact .inr (.inl ⟨access, by simp [holds, hquest, StepPart.hold, StepPart.before]⟩)
      | unit =>
        exact .inr (.inr ⟨owner.unit, access, by
          simp [holds, hquest, StepPart.hold, StepPart.before]⟩)
    · cases part with
      | side => exact .inl (by simp [holds, hquest, StepPart.before])
      | unit => exact .inr (.inl ⟨access, by simp [holds, hquest, StepPart.before]⟩)

/-- Outside of all steps a lane holds nothing. -/
theorem Hold.single_nil : Single [] where
  nodup := List.nodup_nil
  eq_of_side _ _ _ h := nomatch h
  eq_of_unit _ _ _ h := nomatch h
  side_of_unit _ _ h := nomatch h

/-- On its way into a step and out of it a lane holds a side alone. -/
theorem Hold.single_side (lane : Nat) (access : Access) : Single [.side lane access] where
  nodup := List.nodup_singleton _
  eq_of_side _ _ _ h h' := by simp_all
  eq_of_unit _ _ _ h := by simp at h
  side_of_unit _ _ h := by simp at h

/-- Inside of a step a lane holds the lock of a unit and a side. -/
theorem Hold.single_unit (lane : Nat) (id : String) (access : Access) :
    Single [.unit lane id, .side lane access] where
  nodup := by simp
  eq_of_side _ _ _ h h' := by simp_all
  eq_of_unit _ _ _ h h' := by simp_all
  side_of_unit _ _ h := ⟨access, by simp_all⟩

/-- Wherever a lane stands, it holds what belongs to one step at most, in its own name. -/
theorem Stance.IsOf.single {lane : Nat} {stance : Stance} (h : stance.IsOf lane) :
    Hold.Single stance.holds ∧ ∀ hold ∈ stance.holds, hold.lane = lane := by
  obtain heq | ⟨access, heq⟩ | ⟨id, access, heq⟩ := h.holds_cases
  · rw [heq]
    exact ⟨Hold.single_nil, fun _ h => nomatch h⟩
  · rw [heq]
    exact ⟨Hold.single_side lane access, by simp [Hold.lane]⟩
  · rw [heq]
    exact ⟨Hold.single_unit lane id access, by simp [Hold.lane]⟩

namespace Crew

/-- The step that the lane at a position runs. -/
def running? (c : Crew) (i : Nat) : Option StepCall :=
  c.workers[i]?.bind Worker.running?

namespace Sound

variable {c : Crew} (h : c.Sound)
include h

/-- Lanes of a crew are told apart by their numbers. -/
theorem eq_of_number {w v : Worker} (hw : w ∈ c.workers) (hv : v ∈ c.workers)
    (heq : w.lane.number = v.lane.number) : w = v :=
  List.inj_on_of_nodup_map h.nodup hw hv heq

/-- Lanes at different places of a crew have different numbers. -/
theorem number_ne {i j : Nat} (hne : i ≠ j) {w v : Worker} (hw : c.workers[i]? = some w)
    (hv : c.workers[j]? = some v) : v.lane.number ≠ w.lane.number := by
  intro heq
  have hi : i < (c.workers.map (·.lane.number)).length := by
    rw [List.length_map]
    exact (List.getElem?_eq_some_iff.1 hw).1
  refine hne ((List.getElem?_inj hi h.nodup).1 ?_)
  rw [List.getElem?_map, List.getElem?_map, hw, hv, Option.map_some, Option.map_some, heq]

/-- What is held in the name of a lane is held by that lane. -/
theorem exists_of_mem_holds {hold : Hold} (hhold : hold ∈ c.holds) :
    ∃ w ∈ c.workers, hold.lane = w.lane.number ∧
      ∀ other ∈ c.holds, other.lane = hold.lane → other ∈ w.status.holds := by
  have hlane : ∀ w ∈ c.workers, ∀ hold ∈ w.status.holds, hold.lane = w.lane.number :=
    fun w hw => (h.isFit w hw).isOf.single.2
  obtain ⟨w, hw, hmem⟩ := List.mem_flatMap.1 hhold
  refine ⟨w, hw, hlane w hw hold hmem, fun other hother heq => ?_⟩
  obtain ⟨v, hv, hmem'⟩ := List.mem_flatMap.1 hother
  have hnumber : v.lane.number = w.lane.number := by
    rw [← hlane v hv other hmem', heq, hlane w hw hold hmem]
  exact h.eq_of_number hv hw hnumber ▸ hmem'

/-- No lane of the crew holds more than what belongs to one step. -/
theorem single : Hold.Single c.holds := by
  have hsingle : ∀ w ∈ c.workers, Hold.Single w.status.holds :=
    fun w hw => (h.isFit w hw).isOf.single.1
  refine ⟨?_, ?_, ?_, ?_⟩
  · refine List.nodup_flatMap.2 ⟨fun w hw => (hsingle w hw).nodup, ?_⟩
    refine (List.pairwise_map.1 h.nodup).imp_of_mem fun {w v} hw hv hne hold hmem hmem' => hne ?_
    rw [← (h.isFit w hw).isOf.single.2 hold hmem, (h.isFit v hv).isOf.single.2 hold hmem']
  · intro lane access other hside hside'
    obtain ⟨w, hw, -, hown⟩ := h.exists_of_mem_holds hside
    exact (hsingle w hw).eq_of_side lane _ _ (hown _ hside rfl) (hown _ hside' rfl)
  · intro lane id other hunit hunit'
    obtain ⟨w, hw, -, hown⟩ := h.exists_of_mem_holds hunit
    exact (hsingle w hw).eq_of_unit lane _ _ (hown _ hunit rfl) (hown _ hunit' rfl)
  · intro lane id hunit
    obtain ⟨w, hw, -, hown⟩ := h.exists_of_mem_holds hunit
    obtain ⟨access, hside⟩ := (hsingle w hw).side_of_unit lane id (hown _ hunit rfl)
    exact ⟨access, List.mem_flatMap.2 ⟨w, hw, hside⟩⟩

/-! ### Exclusion -/

/-- A step that runs is held. -/
theorem holds_of_running {w : Worker} (hw : w ∈ c.workers) {call : StepCall}
    (hcall : w.running? = some call) :
    .side w.lane.number (Access.ofStep call.step.isAggregating) ∈ c.holds ∧
      .unit w.lane.number call.unit.id ∈ c.holds := by
  have hnext := Worker.next?_of_running hcall
  rw [Lane.next?_eq_head?] at hnext
  obtain ⟨hstatus, hunit, hlane⟩ := (h.isFit w hw).of_ran hnext
  have hmem : ∀ hold ∈ w.status.holds, hold ∈ c.holds := fun hold hhold =>
    List.mem_flatMap.2 ⟨w, hw, hhold⟩
  rw [Worker.status, hstatus] at hmem
  rw [← hlane, hunit]
  exact ⟨hmem _ (by simp [Stance.holds]), hmem _ (by simp [Stance.holds])⟩

/-- No lane runs a step beside an aggregating one, and no two lanes run steps on one unit. -/
theorem exclusive {w v : Worker} (hw : w ∈ c.workers) (hv : v ∈ c.workers)
    (hne : v.lane.number ≠ w.lane.number) {call other : StepCall} (hcall : w.running? = some call)
    (hother : v.running? = some other) :
    call.step.isAggregating = false ∧ other.unit.id ≠ call.unit.id := by
  obtain ⟨hside, hunit⟩ := h.holds_of_running hw hcall
  obtain ⟨hside', hunit'⟩ := h.holds_of_running hv hother
  constructor
  · by_contra haggregating
    rw [Bool.not_eq_false] at haggregating
    rw [haggregating] at hside
    exact hne (h.accords.eq_of_write hside hside')
  · intro heq
    rw [heq] at hunit'
    exact hne (h.accords.eq_of_unit hunit hunit')

/-! ### Progress -/

/-- A lane that can make no step has come to its end or waits for a lock. -/
theorem waits_of_stuck {w : Worker} (hw : w ∈ c.workers) (hstuck : w.step? c.table = none) :
    w.status = .outside ∧ w.lane.next? = none ∨
      ∃ owner access part calls, w.status = .asking owner access part (.waiting calls) ∧
        c.table.take? owner access part = none := by
  obtain hover | ⟨owner, access, part, calls, hstatus, hcalls⟩ :=
    (h.isFit w hw).of_step?_eq_none hstuck
  · exact .inl hover
  · have hheeds := h.heeds w hw
    rw [hstatus] at hheeds
    exact .inr ⟨owner, access, part, calls, hstatus, hheeds.2 hcalls⟩

/-- If no lane can make a step, nobody waits for the lock of a unit: its holder could go on. -/
theorem part_of_stuck (hstuck : ∀ w ∈ c.workers, w.step? c.table = none) {owner : Owner}
    {access : Access} {part : StepPart} (hnone : c.table.take? owner access part = none) :
    part = .side := by
  cases part with
  | side => rfl
  | unit =>
    exfalso
    obtain ⟨holder, hholder, -⟩ :=
      UnitLock.acquire?_eq_none_iff.1 (LockTable.take?_unit_eq_none_iff.1 hnone)
    have hunit : .unit holder.lane owner.unit ∈ c.holds := by
      rw [← h.accords.holder_iff, hholder, Option.map_some]
    obtain ⟨v, hv, hmem⟩ := List.mem_flatMap.1 hunit
    obtain ⟨houtside, -⟩ | ⟨other, access', part, calls, hwaits, -⟩ :=
      h.waits_of_stuck hv (hstuck v hv)
    · rw [houtside] at hmem
      cases hmem
    · rw [hwaits] at hmem
      cases part <;> simp [Stance.holds, StepPart.before] at hmem

/-- If no lane can make a step, all lanes have come to their ends. -/
theorem next?_eq_none_of_stuck (hstuck : ∀ w ∈ c.workers, w.step? c.table = none) :
    ∀ w ∈ c.workers, w.lane.next? = none := by
  have hwaits : ∀ w ∈ c.workers, w.status = .outside ∧ w.lane.next? = none ∨
      ∃ owner access calls, w.status = .asking owner access .side (.waiting calls) ∧
        c.table.aggregator.acquire? owner access = none := by
    intro w hw
    refine (h.waits_of_stuck hw (hstuck w hw)).imp_right ?_
    rintro ⟨owner, access, part, calls, hstatus, hnone⟩
    obtain rfl := h.part_of_stuck hstuck hnone
    exact ⟨owner, access, calls, hstatus, LockTable.take?_side_eq_none_iff.1 hnone⟩
  -- whoever waits for a side holds nothing, so all sides are free
  have hholds : c.holds = [] := by
    refine List.flatMap_eq_nil_iff.2 fun w hw => ?_
    obtain ⟨hstatus, -⟩ | ⟨owner, access, calls, hstatus, -⟩ := hwaits w hw
    · rw [hstatus]
      rfl
    · rw [hstatus]
      simp [Stance.holds, StepPart.before]
  have haccords := h.accords.aggregator
  rw [hholds] at haccords
  obtain ⟨hwriter, -, hreaders⟩ := haccords.eq_free
  -- the write side would not be refused, so nobody waits for it
  have hread : ∀ owner access, c.table.aggregator.acquire? owner access = none →
      access = .read := by
    intro owner access hnone
    cases access with
    | read => rfl
    | write =>
      obtain ⟨writer, heq, -⟩ | ⟨-, lane, hlane, -⟩ :=
        AggregatorLock.acquire?_write_eq_none_iff.1 hnone
      · rw [hwriter] at heq
        cases heq
      · rw [hreaders] at hlane
        cases hlane
  have hweight : c.weight = 0 := by
    refine List.sum_eq_zero fun n hn => ?_
    obtain ⟨w, hw, rfl⟩ := List.mem_map.1 hn
    obtain ⟨hstatus, -⟩ | ⟨owner, access, calls, hstatus, hnone⟩ := hwaits w hw
    · rw [hstatus]
      rfl
    · obtain rfl := hread owner access hnone
      rw [hstatus]
      rfl
  -- so the read side would not be refused either
  intro w hw
  obtain ⟨-, hover⟩ | ⟨owner, access, calls, hstatus, hnone⟩ := hwaits w hw
  · exact hover
  · obtain rfl := hread owner access hnone
    obtain ⟨-, -, hcause⟩ := AggregatorLock.acquire?_read_eq_none_iff.1 hnone
    rw [hwriter, haccords.waitingWriters_eq, hweight] at hcause
    simp at hcause

/-- As long as a lane has something left to do, some lane can make a step. -/
theorem progress (hleft : ∃ w ∈ c.workers, w.lane.next?.isSome) : ∃ i, (c.move? i).isSome := by
  by_contra hnone
  obtain ⟨w, hw, hnext⟩ := hleft
  have hstuck : ∀ w ∈ c.workers, w.step? c.table = none := by
    intro w hw
    by_contra hstep
    exact hnone (move?_isSome_of_step? hw (Option.isSome_iff_ne_none.2 hstep))
  rw [h.next?_eq_none_of_stuck hstuck w hw] at hnext
  cases hnext

end Sound

/-- Whatever lanes run side by side, on whatever units they fork, and however they move: while an
aggregating step runs no other lane runs a step; no two lanes run steps on one unit; no lane has the
locks of more than one step, nor the lock of a unit without a side of the aggregator lock; and as
long as a lane has something left to do, some lane can make a step. -/
theorem steps_exclude_each_other (jobs : List Job) (moves : List Nat) :
    (∀ i j call other, i ≠ j → ((ofJobs jobs).after moves).running? i = some call →
      ((ofJobs jobs).after moves).running? j = some other →
        call.step.isAggregating = false ∧ other.unit.id ≠ call.unit.id) ∧
    (∀ w ∈ ((ofJobs jobs).after moves).workers, w.held.length ≤ 1) ∧
    ((ofJobs jobs).after moves).table.Modest ∧
    ((∃ w ∈ ((ofJobs jobs).after moves).workers, w.lane.next?.isSome) →
      ∃ i, (((ofJobs jobs).after moves).move? i).isSome) := by
  have hsound := sound_after jobs moves
  generalize (ofJobs jobs).after moves = c at hsound ⊢
  refine ⟨?_, fun w hw => (hsound.isFit w hw).length_held_le, hsound.accords.modest hsound.single,
    hsound.progress⟩
  intro i j call other hne hcall hother
  obtain ⟨w, hw, hrun⟩ := Option.bind_eq_some_iff.1 hcall
  obtain ⟨v, hv, hrun'⟩ := Option.bind_eq_some_iff.1 hother
  exact hsound.exclusive (List.mem_of_getElem? hw) (List.mem_of_getElem? hv)
    (hsound.number_ne hne hw hv) hrun hrun'

end Crew

/-! ### Between two steps -/

/-- Steps that always succeed, of two units. -/
def Job.ofDuo (unit : String) (executions : List Execution) : Job where
  executor :=
    { units := .duo
      runner := fun _ call => (.ok (), call.state)
      resolver := Resolver.none
      locking := true }
  locking := rfl
  unit
  state := {}
  plan := { unit, executions }

/-- A survey of the first unit, which forks two steps on the second one, and a step of the second
unit. -/
def surveyBesideBuild : List Job :=
  let step (goal : String) (aggregator : Bool) : Step :=
    { descriptor :=
        { plugin := { group := "org.acme", artifact := "acme-plugin" }, goal, aggregator }
      executionId := goal, source := .lifecycle, configuration := { name := "configuration" } }
  let forked := [step "check" false, step "test" false].map fun step => ⟨step, .notForking⟩
  [.ofDuo "root" [⟨step "survey" true, .expanded [⟨"app", forked⟩]⟩],
    .ofDuo "app" [⟨step "compile" false, .notForking⟩]]

namespace Crew

/-- A lane that is about to begin with a step, a forked one or not, has none of the locks: it has
given back those of the step before. -/
theorem free_before_step (jobs : List Job) (moves : List Nat) :
    ∀ w ∈ ((ofJobs jobs).after moves).workers, w.stance = .outside →
      (∃ owner access, w.lane.next? = some (.locked owner access)) →
      (∀ id, (((ofJobs jobs).after moves).table.unitLock id).holder.map (·.lane) ≠
        some w.lane.number) ∧
      ((ofJobs jobs).after moves).table.aggregator.isReader w.lane.number = false ∧
      ((ofJobs jobs).after moves).table.aggregator.isWriter w.lane.number = false := by
  have hsound := sound_after jobs moves
  generalize (ofJobs jobs).after moves = c at hsound ⊢
  intro w hw hstance ⟨owner, access, hnext⟩
  have hstatus : w.status = .outside := by
    have hfits := hsound.isFit w hw
    rw [Lane.next?_eq_head?] at hnext
    rw [Worker.IsFit, hstance] at hfits
    rw [Worker.status, hstance, hfits.of_locked hnext]
    rfl
  have hnone : ∀ hold ∈ c.holds, hold.lane ≠ w.lane.number := by
    intro hold hhold heq
    obtain ⟨v, hv, hlane, hown⟩ := hsound.exists_of_mem_holds hhold
    obtain rfl := hsound.eq_of_number hv hw (hlane.symm.trans heq)
    have hmem := hown hold hhold rfl
    rw [hstatus] at hmem
    cases hmem
  refine ⟨fun id hid => hnone _ (hsound.accords.holder_iff.1 hid) rfl, ?_, ?_⟩
  · by_contra hreader
    exact hnone _ (hsound.accords.isReader_iff.1 (Bool.eq_true_of_not_eq_false hreader)) rfl
  · by_contra hwriter
    exact hnone _ (hsound.accords.mem_of_isWriter (Bool.eq_true_of_not_eq_false hwriter)) rfl

/-- So it is between two steps of forked work. -/
theorem free_between_forked_steps :
    ∃ w ∈ ((ofJobs surveyBesideBuild).after (.replicate 10 0)).workers, w.lane.number = 1 ∧
      (∀ id, (((ofJobs surveyBesideBuild).after (.replicate 10 0)).table.unitLock id).holder.map
        (·.lane) ≠ some w.lane.number) ∧
      ((ofJobs surveyBesideBuild).after (.replicate 10 0)).table.aggregator.isReader
        w.lane.number = false ∧
      ((ofJobs surveyBesideBuild).after (.replicate 10 0)).table.aggregator.isWriter
        w.lane.number = false := by
  have hlength : 0 < ((ofJobs surveyBesideBuild).after (.replicate 10 0)).workers.length := by
    decide +kernel
  refine ⟨((ofJobs surveyBesideBuild).after (.replicate 10 0)).workers[0], List.getElem_mem _,
    by decide +kernel +revert, free_before_step surveyBesideBuild _ _ (List.getElem_mem _)
      (by decide +kernel +revert) ⟨⟨1, "app", "acme-plugin:test (test)"⟩, .read, rfl⟩⟩

/-- The steps that have been run: the lane, the unit and the goal of each. -/
def steps (c : Crew) : List (Nat × String × String) :=
  c.trace.filterMap fun (lane, action) =>
    action.call?.map fun (call : StepCall) => (lane, call.unit.id, call.step.descriptor.goal)

end Crew

/-- Locks belong to single steps. So another lane can run a step on a unit between the first and the
last of the steps that a lane runs there as forked work. -/
theorem forked_work_is_interrupted : ∃ moves,
    ((Crew.ofJobs surveyBesideBuild).after moves).steps =
      [(1, "app", "check"), (2, "app", "compile"), (1, "app", "test")] :=
  ⟨.replicate 10 0 ++ .replicate 8 1 ++ .replicate 5 0, by decide +kernel⟩

end PhasedBuild
