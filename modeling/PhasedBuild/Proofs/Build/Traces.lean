import PhasedBuild.Proofs.Build.Ordering
import PhasedBuild.Proofs.Run.Contributions

/-!
# What the trace of a build tells of its lanes

The trace of a build has the actions of all lanes, in the order in which they were done. What has
been done in the build of one unit in one segment stands in it in the order of the lane that did it.

* `BuildRun.finishedIn`: the steps of a unit's own plan that the trace shows as finished in a
  segment.
* `BuildRun.Traced`: where the actions of the lanes stand in the trace (`Traced.step`).
* `Traced.finishedIn_delivered`: what a lane has finished, once it has delivered its result.
-/

namespace PhasedBuild.BuildRun

variable {rules : BuildRules} {stages : List Stage} {b b' : BuildRun}

/-! ### What the trace shows -/

/-- What has been done in the build of a unit in a segment. -/
def actionsIn (b : BuildRun) (id : String) (segment : Nat) : List Action :=
  (b.trace.filter fun entry => entry.key = (id, segment)).map (·.action)

/-- The steps of its own plan that a unit has finished in a segment. -/
def finishedIn (b : BuildRun) (id : String) (segment : Nat) : List String :=
  Action.finished (b.actionsIn id segment)

/-- The steps of its own plans that a unit has finished in the first segments of a build. -/
def finishedBefore (b : BuildRun) (id : String) (segments : Nat) : List String :=
  (List.range segments).flatMap (b.finishedIn id)

/-- A new entry adds its action to what has been done for its unit in its segment. -/
theorem actionsIn_concat_self {entry : Entry} (htrace : b'.trace = b.trace ++ [entry]) :
    b'.actionsIn entry.unit entry.segment =
      b.actionsIn entry.unit entry.segment ++ [entry.action] := by
  unfold actionsIn
  rw [htrace, List.filter_append, List.map_append, List.filter_singleton]
  simp [Entry.key]

/-- A new entry adds nothing to what has been done for others. -/
theorem actionsIn_concat_of_ne {entry : Entry} (htrace : b'.trace = b.trace ++ [entry])
    {id : String} {segment : Nat} (h : (id, segment) ≠ entry.key) :
    b'.actionsIn id segment = b.actionsIn id segment := by
  unfold actionsIn
  rw [htrace, List.filter_append, List.filter_singleton]
  simp [Ne.symm h]

/-- What is reported of a unit as a whole finishes no step. -/
theorem finishedIn_concat_ofUnit {id : String} {segment : Nat} {change : UnitChange}
    (htrace : b'.trace = b.trace ++ [⟨segment, id, .reported (.ofUnit id segment change)⟩]) :
    b'.finishedIn = b.finishedIn := by
  funext other position
  unfold finishedIn
  by_cases heq : (other, position) = (id, segment)
  · obtain ⟨rfl, rfl⟩ := Prod.mk.inj heq
    exact (congrArg Action.finished (actionsIn_concat_self htrace)).trans
      (Action.finishedAt_of_quiet rfl rfl)
  · rw [actionsIn_concat_of_ne htrace heq]

/-- The steps that were finished in one more segment come last. -/
theorem finishedBefore_succ (id : String) (n : Nat) :
    b.finishedBefore id (n + 1) = b.finishedBefore id n ++ b.finishedIn id n := by
  rw [finishedBefore, List.range_succ, List.flatMap_append, List.flatMap_singleton]
  rfl

/-- What was finished before a segment depends on the segments before only. -/
theorem finishedBefore_congr {id : String} {n : Nat}
    (h : ∀ i < n, b'.finishedIn id i = b.finishedIn id i) :
    b'.finishedBefore id n = b.finishedBefore id n :=
  List.flatMap_congr fun i hi => h i (List.mem_range.1 hi)

/-- The actions of every lane stand in the trace where they belong, and nothing is there that does
not. -/
structure Traced (stages : List Stage) (b : BuildRun) : Prop where
  known : ∀ entry ∈ b.trace, entry.key ∈ stages.flatMap Stage.pairs
  past : ∀ entry ∈ b.trace, entry.segment ≤ b.stage.position
  outstanding : ∀ part ∈ b.outstanding, b.actionsIn part.1 part.2 = []
  lanes : ∀ lane ∈ b.active, b.actionsIn lane.unit b.stage.position =
    .reported (.ofUnit lane.unit b.stage.position .started) :: lane.work.actions.take lane.done
  delivered : ∀ entry ∈ b.delivered, entry.1.next? = none

namespace Traced

/-- What lanes do to their own places and to the queue does not matter. -/
theorem of_lanes (h : b.Traced stages) (htrace : b'.trace = b.trace) (hstage : b'.stage = b.stage)
    (houtstanding : b'.outstanding = b.outstanding) (hactive : ∀ lane ∈ b'.active, lane ∈ b.active)
    (hdelivered : ∀ entry ∈ b'.delivered, entry.1.next? = none) : b'.Traced stages := by
  have hactions : b'.actionsIn = b.actionsIn := by
    unfold actionsIn
    rw [htrace]
  refine ⟨?_, ?_, ?_, ?_, hdelivered⟩
  · rw [htrace]
    exact h.known
  · rw [htrace, hstage]
    exact h.past
  · rw [houtstanding, hactions]
    exact h.outstanding
  · intro lane hlane
    rw [hactions, hstage]
    exact h.lanes lane (hactive lane hlane)

/-- An entry that is added is about a unit that is not outstanding any more. -/
theorem concat (h : b.Traced stages) {id : String} {action : Action}
    (htrace : b'.trace = (b.note id action).trace) (hstage : b'.stage = b.stage)
    (hknown : (id, b.stage.position) ∈ stages.flatMap Stage.pairs)
    (houtstanding : ∀ part ∈ b'.outstanding, part ∈ b.outstanding ∧ part ≠ (id, b.stage.position))
    (hlanes : ∀ lane ∈ b'.active, lane ∈ b.active ∧ lane.unit ≠ id ∨
      lane.unit = id ∧ b.actionsIn id b.stage.position ++ [action] =
        .reported (.ofUnit id b.stage.position .started) :: lane.work.actions.take lane.done)
    (hdelivered : ∀ entry ∈ b'.delivered, entry.1.next? = none) : b'.Traced stages := by
  have hactions : ∀ other segment, (other, segment) ≠ (id, b.stage.position) →
      b'.actionsIn other segment = b.actionsIn other segment :=
    fun _ _ hne => actionsIn_concat_of_ne htrace hne
  have hentry : ∀ entry ∈ b'.trace, entry ∈ b.trace ∨ entry = ⟨b.stage.position, id, action⟩ := by
    intro entry hentry
    rw [htrace] at hentry
    exact (List.mem_append.1 hentry).imp_right List.mem_singleton.1
  refine ⟨?_, ?_, ?_, ?_, hdelivered⟩
  · intro entry hmem
    rcases hentry entry hmem with hold | rfl
    · exact h.known entry hold
    · exact hknown
  · intro entry hmem
    rw [hstage]
    rcases hentry entry hmem with hold | rfl
    · exact h.past entry hold
    · exact Nat.le_refl _
  · intro part hpart
    obtain ⟨hold, hne⟩ := houtstanding part hpart
    rw [hactions _ _ hne]
    exact h.outstanding part hold
  · intro lane hlane
    rw [hstage]
    rcases hlanes lane hlane with ⟨hold, hne⟩ | ⟨rfl, heq⟩
    · rw [hactions _ _ fun heq => hne (Prod.mk.inj heq).1]
      exact h.lanes lane hold
    · exact (actionsIn_concat_self htrace).trans heq

/-- A lane that does its next action has done one more of its actions. -/
theorem take_done_succ {lane : Lane} {action : Action} (h : lane.next? = some action) :
    lane.work.actions.take (lane.done + 1) = lane.work.actions.take lane.done ++ [action] := by
  rw [List.take_add_one, show lane.work.actions[lane.done]? = some action from h]
  rfl

/-- When a lane does its next action, the other lanes stay as they are. -/
theorem mem_active_act (hnodup : (b.active.map (·.unit)).Nodup) {pre post : List Lane}
    {lane other : Lane} {action : Action} (hworking : b.working = pre ++ lane :: post)
    (hother : other ∈ ({ b.note lane.unit action with
      working := pre ++ { lane with done := lane.done + 1 } :: post } : BuildRun).active) :
    other = { lane with done := lane.done + 1 } ∨ other ∈ b.active ∧ other.unit ≠ lane.unit := by
  have hmiddle : ∀ l : Lane, (pre ++ l :: post ++ b.delivered.map (·.1)).Perm
      (l :: (pre ++ post ++ b.delivered.map (·.1))) := fun _ => List.perm_middle.append_right _
  have hactive : b.active.Perm (lane :: (pre ++ post ++ b.delivered.map (·.1))) := by
    rw [active, hworking]
    exact hmiddle lane
  have hunits := (hactive.map (·.unit)).nodup_iff.1 hnodup
  refine (List.mem_cons.1 ((hmiddle _).mem_iff.1 hother)).imp_right fun hrest => ?_
  refine ⟨hactive.mem_iff.2 (List.mem_cons_of_mem _ hrest), fun heq => ?_⟩
  exact (List.nodup_cons.1 hunits).1 (List.mem_map.2 ⟨other, hrest, heq⟩)

section steps

variable (hb : b.Sound rules stages) (haccounted : b.Accounted stages)
  (hnodup : (stages.flatMap Stage.pairs).Nodup)

include haccounted in
/-- A unit on which a lane is active takes part in the stage that is being built. -/
theorem mem_pairs_of_underway {lane : Lane} (hlane : lane ∈ b.active) :
    (lane.unit, b.stage.position) ∈ stages.flatMap Stage.pairs :=
  haccounted.perm.mem_iff.1
    (List.mem_append_right _ (List.mem_append_left _ (List.mem_map_of_mem hlane)))

include haccounted hnodup in
/-- A part whose turn is still to come is not the part of an active lane. -/
theorem ne_of_outstanding {lane : Lane} (hlane : lane ∈ b.active) {part : String × Nat}
    (hpart : part ∈ b.outstanding) : part ≠ (lane.unit, b.stage.position) := by
  rintro rfl
  exact haccounted.notMem_underway hnodup hpart (List.mem_map_of_mem hlane)

include haccounted in
/-- A part whose turn is still to come is one of the build. -/
theorem mem_pairs_of_outstanding {part : String × Nat} (hpart : part ∈ b.outstanding) :
    part ∈ stages.flatMap Stage.pairs :=
  haccounted.perm.mem_iff.1 (List.mem_append_right _ (List.mem_append_right _ hpart))

include hb haccounted hnodup

/-- The unit that the coordinator turns to is not outstanding any more once its status changes. -/
theorem outstanding_mark {id : String} {rest : List String}
    (hposition : b.position = .walking (id :: rest)) {status : UnitStatus}
    (hstatus : status ≠ .pending) : (id, b.stage.position) ∈ b.outstanding ∧
      ∀ part ∈ (b.schedule.mark id status).pendingIds.map (·, b.stage.position) ++
        b.rest.flatMap Stage.pairs, part ∈ b.outstanding ∧ part ≠ (id, b.stage.position) := by
  have hperm := hb.outstanding_perm_mark hposition hstatus
  have hrest := (List.nodup_append.1 (haccounted.perm.nodup_iff.2 hnodup)).2.1
  have hone := hperm.nodup_iff.1 (List.nodup_append.1 hrest).2.1
  refine ⟨hperm.mem_iff.2 List.mem_cons_self, fun part hpart => ?_⟩
  refine ⟨hperm.mem_iff.2 (List.mem_cons_of_mem _ hpart), ?_⟩
  rintro rfl
  exact (List.nodup_cons.1 hone).1 hpart

/-- The unit that is refused has done nothing, and its end is no step. -/
theorem refuse (h : b.Traced stages) {id : String} {rest : List String} (ending : Ending)
    (plans : UnitPlans) (hposition : b.position = .walking (id :: rest)) :
    Traced stages { b.close rules id ending with plans, position := .walking rest } := by
  obtain ⟨hmem, hrest⟩ :=
    outstanding_mark hb haccounted hnodup hposition ending.status_ne_pending
  refine h.concat rfl rfl (mem_pairs_of_outstanding haccounted hmem) hrest ?_ h.delivered
  intro lane hlane
  refine .inl ⟨hlane, ?_⟩
  rintro rfl
  exact hb.notMem_active hposition (List.mem_map_of_mem hlane)

/-- A lane that starts has nothing in the trace but its start. -/
theorem start (h : b.Traced stages) {id : String} {rest : List String} (plan : ExecutionPlan)
    (hposition : b.position = .walking (id :: rest)) :
    Traced stages { b.start rules id plan with position := .walking rest } := by
  obtain ⟨hmem, hrest⟩ :=
    outstanding_mark hb haccounted hnodup hposition UnitStatus.running_ne_pending
  refine h.concat rfl rfl (mem_pairs_of_outstanding haccounted hmem) hrest ?_ h.delivered
  intro lane hlane
  rcases List.mem_cons.1 ((active_start_perm rules b id plan).mem_iff.1 hlane) with rfl | hold
  · exact .inr ⟨rfl, by rw [h.outstanding _ hmem]; rfl⟩
  · refine .inl ⟨hold, ?_⟩
    rintro rfl
    exact hb.notMem_active hposition (List.mem_map_of_mem hold)

/-- The actions of a lane whose result is recorded stay where they are. -/
theorem record (h : b.Traced stages) {lane : Lane} {released : Bool}
    {delivered : List (Lane × Bool)} (hdelivered : b.delivered = (lane, released) :: delivered) :
    ({ b with delivered }.record rules lane).Traced stages := by
  have hlane := mem_active_of_delivered hdelivered
  have hperm := active_perm_of_delivered hdelivered
  have hunits := (hperm.map (·.unit)).nodup_iff.1 hb.consistent.nodup_active
  refine h.concat rfl rfl (mem_pairs_of_underway haccounted hlane) ?_ ?_ ?_
  · intro part hpart
    rw [hb.outstanding_record hdelivered] at hpart
    exact ⟨hpart, ne_of_outstanding haccounted hnodup hlane hpart⟩
  · intro other hother
    refine .inl ⟨hperm.mem_iff.2 (List.mem_cons_of_mem _ hother), fun heq => ?_⟩
    exact (List.nodup_cons.1 hunits).1 (List.mem_map.2 ⟨other, hother, heq⟩)
  · intro entry hentry
    refine h.delivered entry ?_
    rw [hdelivered]
    exact List.mem_cons_of_mem _ hentry

omit haccounted hnodup in
/-- When the next stage begins, all actions before belong to stages before. -/
theorem enter (hsorted : stages.Pairwise (·.position ≤ ·.position)) (h : b.Traced stages)
    {stage : Stage} {rest : List Stage} (hposition : b.position = .ended)
    (hrest : b.rest = stage :: rest) : (b.enter rules stage rest).Traced stages where
  known := h.known
  past := by
    intro entry hentry
    have hle := hb.position_le hsorted (hrest ▸ List.mem_cons_self)
    exact Nat.le_trans (h.past entry hentry) hle
  outstanding := by
    rw [hb.outstanding_enter hposition hrest]
    exact h.outstanding
  lanes := by
    intro lane hlane
    have hactive : (b.enter rules stage rest).active = [] := (hb.ended hposition).1
    rw [hactive] at hlane
    cases hlane
  delivered := h.delivered

/-- The action of a lane comes last in the trace of its unit. -/
theorem act (h : b.Traced stages) {pre post : List Lane} {lane : Lane} {action : Action}
    (hworking : b.working = pre ++ lane :: post) (hnext : lane.next? = some action) :
    Traced stages { b.note lane.unit action with
      working := pre ++ { lane with done := lane.done + 1 } :: post } := by
  have hlane := mem_active_of_working hworking
  refine h.concat rfl rfl (mem_pairs_of_underway haccounted hlane) ?_ ?_ h.delivered
  · intro part hpart
    exact ⟨hpart, ne_of_outstanding haccounted hnodup hlane hpart⟩
  · intro other hother
    rcases mem_active_act hb.consistent.nodup_active hworking hother with rfl | hold
    · refine .inr ⟨rfl, ?_⟩
      rw [h.lanes lane hlane, List.cons_append, ← take_done_succ hnext]
    · exact .inl hold

/-- Every step leaves the actions of the lanes where they belong. -/
theorem step (hsorted : stages.Pairwise (·.position ≤ ·.position)) (h : b.Traced stages)
    (hstep : Step rules b b') : b'.Traced stages := by
  cases hstep with
  | idle => exact h
  | advance hstep =>
    cases hstep with
    | onward _ => exact h.of_lanes rfl rfl rfl (fun _ hlane => hlane) h.delivered
    | refuse hposition _ => exact h.refuse hb haccounted hnodup _ _ hposition
    | start hposition _ _ _ => exact h.start hb haccounted hnodup _ hposition
    | record _ hdelivered => exact h.record hb haccounted hnodup hdelivered
    | enter hposition hrest => exact h.enter hb hsorted hposition hrest
  | act hworking hnext => exact h.act hb haccounted hnodup hworking hnext
  | @deliver pre post lane hworking hnext _ =>
    refine h.of_lanes rfl rfl rfl
      (fun lane hlane => (active_perm_of_working hworking).mem_iff.2 hlane) ?_
    intro entry hentry
    rcases List.mem_append.1 hentry with hold | hnew
    · exact h.delivered entry hold
    · obtain rfl := List.mem_singleton.1 hnew
      exact hnext
  | @release pre post lane released hdelivered =>
    refine h.of_lanes rfl rfl rfl (fun lane hlane => ?_) ?_
    · simpa [active, hdelivered] using hlane
    · intro entry hentry
      have hold := h.delivered
      rw [hdelivered] at hold
      rcases List.mem_append.1 hentry with hpre | hpost
      · exact hold entry (List.mem_append_left _ hpre)
      rcases List.mem_cons.1 hpost with rfl | hpost
      · exact hold (lane, released) (List.mem_append_right _ List.mem_cons_self)
      · exact hold entry (List.mem_append_right _ (List.mem_cons_of_mem _ hpost))

end steps

/-- What a lane that has delivered its result has finished is what there is to be finished in its
work. -/
theorem finishedIn_delivered (h : b.Traced stages) {lane : Lane} {released : Bool}
    (hmem : (lane, released) ∈ b.delivered) :
    b.finishedIn lane.unit b.stage.position = Action.finished lane.work.actions := by
  have hlane : lane ∈ b.active := List.mem_append_right _ (List.mem_map_of_mem hmem)
  have hdone : lane.work.actions.length ≤ lane.done :=
    List.getElem?_eq_none_iff.1 (h.delivered _ hmem)
  have hstarted : Action.Deep 0
      [.reported (.ofUnit lane.unit b.stage.position .started)] := .reported rfl
  rw [finishedIn, h.lanes lane hlane, List.take_of_length_le hdone]
  exact Action.finishedAt_append hstarted 0 lane.work.actions

end Traced

/-- What has no entry in the trace has finished nothing. -/
theorem finishedIn_eq_nil {id : String} {segment : Nat}
    (h : ∀ entry ∈ b.trace, entry.key ≠ (id, segment)) : b.finishedIn id segment = [] := by
  have hnone : (b.trace.filter fun entry => entry.key = (id, segment)) = [] := by
    refine List.filter_eq_nil_iff.2 fun entry hentry => ?_
    simpa using h entry hentry
  rw [finishedIn, actionsIn, hnone]
  rfl

/-- In later segments nothing has been finished. -/
theorem Traced.finishedIn_later (h : b.Traced stages) (id : String) {segment : Nat}
    (hlt : b.stage.position < segment) : b.finishedIn id segment = [] := by
  refine finishedIn_eq_nil fun entry hentry heq => ?_
  have hle := h.past entry hentry
  have hsegment : entry.segment = segment := (Prod.mk.inj heq).2
  omega

end PhasedBuild.BuildRun
