import PhasedBuild.Proofs.Build.Ownership
import PhasedBuild.Proofs.Build.Plans
import PhasedBuild.Proofs.Build.Traces
import PhasedBuild.Proofs.Plan.Mappings

/-!
# How states go from segment to segment

What a unit has executed is what has been finished in its build, segment after segment.

* `BuildRun.Tells`: what a result has to tell of the steps of a unit.
* `BuildRun.Noted`: the states and the results have what the trace shows, if the work contributes
  what it finishes (`Noted.step`).
* `Executor.states_are_handed_on`: who has the states of the units at every moment of a build, and
  what they tell of what has been done.
-/

namespace PhasedBuild

/-- What comes after the last item of a list that is not empty does not matter. -/
theorem flatMap_range_eq {α : Type} {f : Nat → List α} {m n : Nat} (hm : ∀ i, m ≤ i → f i = [])
    (hn : ∀ i, n ≤ i → f i = []) : (List.range m).flatMap f = (List.range n).flatMap f := by
  have hle : ∀ m k, (∀ i, m ≤ i → f i = []) →
      (List.range (m + k)).flatMap f = (List.range m).flatMap f := by
    intro m k hm
    induction k with
    | zero => rfl
    | succ k ih =>
      rw [← Nat.add_assoc, List.range_succ, List.flatMap_append, ih, List.flatMap_singleton,
        hm _ (Nat.le_add_right m k), List.append_nil]
  rw [← hle m n hm, ← hle n m hn, Nat.add_comm]

/-- The result of a lane has as many steps as have been noted in the lane's course. -/
theorem Lane.steps_result (lane : Lane) (id : String) (segment : Nat) :
    (lane.ending.result id segment).steps = lane.steps := by
  unfold Lane.ending
  split <;> rfl

/-- A unit is built only if the work of its lane has come to its end. -/
theorem Lane.result_of_success {lane : Lane} {id : String} {segment : Nat}
    (h : (lane.ending.result id segment).outcome = .success) : lane.work.result = .ok () := by
  rw [Ending.outcome_result] at h
  unfold Lane.ending at h
  split at h
  next hok => exact hok
  next => cases h

/-- The steps that there are for a unit of a stage, if `own` has those of a plan. -/
def Stage.ownSteps (own : ExecutionPlan → List String) (stage : Stage) (id : String) :
    List String :=
  match stage.plans.get id with
  | .ok plan => own plan
  | .error _ => []

namespace BuildRun

variable {rules : BuildRules} {stages : List Stage} {b b' : BuildRun}

/-! ### What states and results have -/

/-- What a result tells of the steps of a unit in a stage is right: how many there are, that they
are the first ones of those that there are for the unit, and that they are all of them if the unit
has been built. -/
structure Tells (own : ExecutionPlan → List String) (b : BuildRun) (stage : Stage)
    (r : UnitResult) : Prop where
  mem : r.unit ∈ stage.ids
  segment_eq : r.segment = stage.position
  steps_eq : r.steps = (b.finishedIn r.unit r.segment).length
  isPrefix : b.finishedIn r.unit r.segment <+: stage.ownSteps own r.unit
  eq_of_success : r.outcome = .success →
    b.finishedIn r.unit r.segment = stage.ownSteps own r.unit

variable {own : ExecutionPlan → List String}

/-- What a result tells depends on nothing but what has been finished of its unit in its segment. -/
theorem Tells.congr {stage : Stage} {r : UnitResult} (h : b.Tells own stage r)
    (hfinished : b'.finishedIn r.unit r.segment = b.finishedIn r.unit r.segment) :
    b'.Tells own stage r := by
  obtain ⟨hmem, hsegment, hsteps, hprefix, hsuccess⟩ := h
  rw [← hfinished] at hsteps hprefix hsuccess
  exact ⟨hmem, hsegment, hsteps, hprefix, hsuccess⟩

/-- States and results have what has been finished in a build. -/
structure Noted (own : ExecutionPlan → List String) (stages : List Stage) (b : BuildRun) :
    Prop where
  /-- The state of a unit on which no lane works has it all. -/
  kept : ∀ id, id ∉ b.active.map (·.unit) →
    (b.keptState id).executed = b.finishedBefore id (b.stage.position + 1)
  /-- What a lane has taken along has what was finished in the segments before. -/
  taken : ∀ lane ∈ b.active, lane.before.executed = b.finishedBefore lane.unit b.stage.position
  results : ∀ r ∈ b.summary.results, ∃ stage ∈ stages, b.Tells own stage r

namespace Noted

/-- What lanes do changes nothing but what they have finished themselves. -/
theorem of_lanes (haccounted : b.Accounted stages) (hnodup : (stages.flatMap Stage.pairs).Nodup)
    (h : b.Noted own stages) (hstates : b'.states = b.states) (hstage : b'.stage = b.stage)
    (hsummary : b'.summary = b.summary)
    (hlent : b'.lent.Perm b.lent)
    (hfinished : ∀ part ∉ b.underway, b'.finishedIn part.1 part.2 = b.finishedIn part.1 part.2) :
    b'.Noted own stages where
  kept := by
    intro id hidle
    rw [(units_perm_of_lent hlent).mem_iff] at hidle
    rw [keptState, hstates, hstage, finishedBefore_congr fun i _ => hfinished (id, i) ?_]
    · exact h.kept id hidle
    · intro hmem
      obtain ⟨lane, hlane, heq⟩ := List.mem_map.1 hmem
      exact hidle (List.mem_map.2 ⟨lane, hlane, (Prod.mk.inj heq).1⟩)
  taken := by
    intro lane hlane
    obtain ⟨same, hsame, hunit, hbefore⟩ := exists_same_of_lent hlent hlane
    rw [← hunit, ← hbefore, hstage, finishedBefore_congr fun i hi => hfinished (same.unit, i) ?_]
    · exact h.taken same hsame
    · intro hmem
      obtain ⟨other, -, heq⟩ := List.mem_map.1 hmem
      exact Nat.ne_of_gt hi (Prod.mk.inj heq).2
  results := by
    intro r hr
    rw [hsummary] at hr
    obtain ⟨stage, hmem, htells⟩ := h.results r hr
    refine ⟨stage, hmem, htells.congr (hfinished r.key fun hunderway => ?_)⟩
    exact haccounted.notMem_settled hnodup (List.mem_append_left _ hunderway)
      (List.mem_map_of_mem hr)

/-- What the coordinator does finishes no step. -/
theorem of_coordinator (hfinished : b'.finishedIn = b.finishedIn)
    (hkept : ∀ id, id ∉ b'.active.map (·.unit) →
      (b'.keptState id).executed = b.finishedBefore id (b'.stage.position + 1))
    (hlent : ∀ lane ∈ b'.active,
      lane.before.executed = b.finishedBefore lane.unit b'.stage.position)
    (hresults : ∀ r ∈ b'.summary.results, ∃ stage ∈ stages, b.Tells own stage r) :
    b'.Noted own stages := by
  have hbefore : b'.finishedBefore = b.finishedBefore := by
    unfold finishedBefore
    rw [hfinished]
  refine ⟨?_, ?_, ?_⟩
  · rw [hbefore]
    exact hkept
  · rw [hbefore]
    exact hlent
  · intro r hr
    obtain ⟨stage, hmem, htells⟩ := hresults r hr
    exact ⟨stage, hmem, htells.congr (congrFun (congrFun hfinished r.unit) r.segment)⟩

/-- A result that is added has to tell of the stage that is being built. -/
theorem results_concat (h : b.Noted own stages) {last : UnitResult}
    (hlast : b.Tells own b.stage last) (hmem : b.stage ∈ stages) :
    ∀ r ∈ (b.summary.add last).results, ∃ stage ∈ stages, b.Tells own stage r := by
  intro r hr
  rcases List.mem_append.1 hr with hold | hnew
  · exact h.results r hold
  · obtain rfl := List.mem_singleton.1 hnew
    exact ⟨b.stage, hmem, hlast⟩

section steps

variable (hb : b.Sound rules stages) (htraced : b.Traced stages)

section listed

variable (haccounted : b.Accounted stages) (hnodup : (stages.flatMap Stage.pairs).Nodup)
include hb htraced haccounted hnodup

/-- Nothing has been finished in the segment for the unit that the coordinator turns to. -/
theorem finishedIn_listed {id : String} {rest : List String}
    (hposition : b.position = .walking (id :: rest)) : b.finishedIn id b.stage.position = [] := by
  obtain ⟨hmem, -⟩ :=
    Traced.outstanding_mark hb haccounted hnodup hposition UnitStatus.running_ne_pending
  rw [finishedIn, htraced.outstanding _ hmem]
  rfl

/-- A unit that is refused is left as it was, and its result tells of no steps. -/
theorem refuse (h : b.Noted own stages) {id : String} {rest : List String} {ending : Ending}
    {plans : UnitPlans} (hposition : b.position = .walking (id :: rest))
    (hrefusal : Refusal b id ending plans) :
    Noted own stages { b.close rules id ending with plans, position := .walking rest } := by
  refine of_coordinator (finishedIn_concat_ofUnit rfl) h.kept h.taken ?_
  refine h.results_concat ?_ hb.stage_mem
  have hnothing := finishedIn_listed hb htraced haccounted hnodup hposition
  have hmem := hb.mem_ids_of_mem_ready (hb.mem_ready hposition)
  cases hrefusal with
  | skip _ =>
    refine ⟨hmem, rfl, ?_, ?_, nofun⟩
    · exact (congrArg List.length hnothing).symm
    · exact hnothing ▸ List.nil_prefix
  | unplanned _ _ =>
    refine ⟨hmem, rfl, ?_, ?_, nofun⟩
    · exact (congrArg List.length hnothing).symm
    · exact hnothing ▸ List.nil_prefix

/-- A lane that starts takes the state of its unit along as it is kept. -/
theorem start (h : b.Noted own stages) {id : String} {rest : List String} (plan : ExecutionPlan)
    (hposition : b.position = .walking (id :: rest)) :
    Noted own stages { b.start rules id plan with position := .walking rest } := by
  have hactive := active_start_perm rules b id plan
  refine of_coordinator (finishedIn_concat_ofUnit rfl) ?_ ?_ h.results
  · intro other hidle
    have hnot : other ≠ id ∧ other ∉ b.active.map (·.unit) := by
      have hmap := (hactive.map (·.unit)).mem_iff (a := other)
      rw [List.map_cons, List.mem_cons] at hmap
      exact not_or.1 fun hor => hidle (hmap.2 hor)
    have hstates : Keyed.find? other (Keyed.erase id b.states) = Keyed.find? other b.states :=
      Keyed.find?_erase_of_ne hnot.1 b.states
    refine .trans ?_ (h.kept other hnot.2)
    exact congrArg (fun state => (state.getD {}).executed) hstates
  · intro lane hlane
    rcases List.mem_cons.1 (hactive.mem_iff.1 hlane) with rfl | hold
    · have hkept := h.kept id (hb.notMem_active hposition)
      rw [finishedBefore_succ, finishedIn_listed hb htraced haccounted hnodup hposition,
        List.append_nil] at hkept
      exact hkept
    · exact h.taken lane hold

end listed

include hb htraced

/-- A lane puts back a state that has what it has finished, and its result tells so. -/
theorem record (hplans : b.PlansKept rules) (hwork : rules.work.Contributes own)
    (h : b.Noted own stages) {lane : Lane} {released : Bool}
    {delivered : List (Lane × Bool)} (hdelivered : b.delivered = (lane, released) :: delivered) :
    ({ b with delivered }.record rules lane).Noted own stages := by
  have hlane := mem_active_of_delivered hdelivered
  have hperm := active_perm_of_delivered hdelivered
  have hentry : (lane, released) ∈ b.delivered := by
    rw [hdelivered]
    exact List.mem_cons_self
  have hfinished := htraced.finishedIn_delivered hentry
  obtain ⟨plan, hplan, heq⟩ := hplans.lanes lane hlane
  have hcontributes : lane.work.Contributes (own plan) lane.before := by
    rw [heq]
    exact hwork lane.number lane.unit lane.before plan
  have hsame : ({ b with delivered }.record rules lane).finishedIn = b.finishedIn :=
    finishedIn_concat_ofUnit rfl
  refine of_coordinator hsame ?_ ?_ ?_
  · intro id hidle
    show ((Keyed.find? id (Keyed.insert lane.unit lane.work.state b.states)).getD {}).executed =
      b.finishedBefore id (b.stage.position + 1)
    by_cases hid : id = lane.unit
    · subst hid
      rw [Keyed.find?_insert_self, finishedBefore_succ, hfinished, ← h.taken lane hlane]
      exact hcontributes.executed
    · rw [Keyed.find?_insert_of_ne hid]
      refine h.kept id fun hactive => ?_
      rcases List.mem_cons.1 ((hperm.map (·.unit)).mem_iff.1 hactive) with heq | hrest
      · exact hid heq
      · exact hidle hrest
  · intro other hother
    exact h.taken other (hperm.mem_iff.2 (List.mem_cons_of_mem _ hother))
  · have hstage : b.stage.ownSteps own lane.unit = own plan := by
      rw [Stage.ownSteps, hplan]
    refine h.results_concat ⟨?_, ?_, ?_, ?_, ?_⟩ hb.stage_mem
    · rw [Ending.unit_result]
      exact hb.mem_ids_of_mem_active hlane
    · rw [Ending.segment_result]
    · rw [Ending.unit_result, Ending.segment_result, hfinished, lane.steps_result, Lane.steps,
        hcontributes.executed, List.length_append, Nat.add_sub_cancel_left]
    · rw [Ending.unit_result, Ending.segment_result, hfinished, hstage]
      exact hcontributes.isPrefix
    · intro hsuccess
      rw [Ending.unit_result, Ending.segment_result, hfinished, hstage]
      exact hcontributes.eq_of_ok (Lane.result_of_success hsuccess)

/-- What has been finished of a unit before a segment is what has been finished up to the end of the
last one. -/
theorem enter (hsorted : stages.Pairwise (·.position ≤ ·.position)) (h : b.Noted own stages)
    {stage : Stage} {rest : List Stage} (hposition : b.position = .ended)
    (hrest : b.rest = stage :: rest) : (b.enter rules stage rest).Noted own stages := by
  have hle := hb.position_le hsorted (hrest ▸ List.mem_cons_self)
  have hsame : (b.enter rules stage rest).finishedIn = b.finishedIn := rfl
  refine of_coordinator hsame ?_ ?_ h.results
  · intro id hidle
    refine (h.kept id hidle).trans (flatMap_range_eq ?_ ?_)
    · intro segment hlt
      exact htraced.finishedIn_later id hlt
    · intro segment hlt
      exact htraced.finishedIn_later id (Nat.lt_of_le_of_lt hle hlt)
  · intro lane hlane
    have hactive : (b.enter rules stage rest).active = [] := (hb.ended hposition).1
    rw [hactive] at hlane
    cases hlane

/-- Every step leaves states and results with what has been finished. -/
theorem step (haccounted : b.Accounted stages) (hnodup : (stages.flatMap Stage.pairs).Nodup)
    (hplans : b.PlansKept rules) (hsorted : stages.Pairwise (·.position ≤ ·.position))
    (hwork : rules.work.Contributes own) (h : b.Noted own stages) (hstep : Step rules b b') :
    b'.Noted own stages := by
  cases hstep with
  | idle => exact h
  | advance hstep =>
    cases hstep with
    | onward _ =>
      exact h.of_lanes haccounted hnodup rfl rfl rfl (.refl _) fun _ _ => rfl
    | refuse hposition hrefusal => exact h.refuse hb htraced haccounted hnodup hposition hrefusal
    | start hposition _ _ _ => exact h.start hb htraced haccounted hnodup _ hposition
    | record _ hdelivered => exact h.record hb htraced hplans hwork hdelivered
    | enter hposition hrest => exact h.enter hb htraced hsorted hposition hrest
  | @act pre post lane action hworking _ =>
    refine h.of_lanes haccounted hnodup rfl rfl rfl (.of_eq (lent_act hworking)) ?_
    intro part hpart
    refine congrArg Action.finished (actionsIn_concat_of_ne rfl ?_)
    intro heq
    exact hpart (List.mem_map.2 ⟨lane, mem_active_of_working hworking, heq.symm⟩)
  | deliver hworking _ _ =>
    refine h.of_lanes haccounted hnodup rfl rfl rfl ?_ fun _ _ => rfl
    exact ((active_perm_of_working hworking).map _).symm
  | release hdelivered =>
    have hlent := lent_release hdelivered
    exact h.of_lanes haccounted hnodup rfl rfl rfl (.of_eq hlent) fun _ _ => rfl

end steps

end Noted

end BuildRun

namespace Session

variable (s : Session) (work : Work) (segments : List Segment)

/-- The stages of a build stand in the order of their positions. -/
theorem pairwise_stages_le :
    (({} : Stage) :: s.stages {} 0 segments).Pairwise (·.position ≤ ·.position) :=
  .cons (fun _ _ => Nat.zero_le _) ((s.pairwise_stages {} 0 segments).imp Nat.le_of_lt)

/-- A build that starts has no trace. -/
theorem traced_start : (s.start segments).Traced ({} :: s.stages {} 0 segments) where
  known := fun _ hentry => absurd hentry List.not_mem_nil
  past := fun _ hentry => absurd hentry List.not_mem_nil
  outstanding := fun _ _ => rfl
  lanes := fun _ hlane => absurd hlane List.not_mem_nil
  delivered := fun _ hentry => absurd hentry List.not_mem_nil

/-- A build that starts has noted what its units come with. -/
theorem noted_start {own : ExecutionPlan → List String} :
    (s.start segments).Noted own ({} :: s.stages {} 0 segments) where
  kept := by
    intro id _
    unfold BuildRun.keptState
    cases hfind : Keyed.find? id (s.start segments).states with
    | none => rfl
    | some state =>
      obtain ⟨-, unit, -, -, rfl⟩ := (s.owned_start segments).kept id state hfind
      rfl
  taken := fun _ hlane => absurd hlane List.not_mem_nil
  results := fun _ hr => absurd hr List.not_mem_nil

/-- States and results have what has been finished at every moment of a build, if the work of its
lanes contributes what it finishes. -/
theorem noted_buildAfter {own : ExecutionPlan → List String} (hwork : work.Contributes own)
    (moves : List BuildRun.Move) :
    (s.buildAfter work segments moves).Traced ({} :: s.stages {} 0 segments) ∧
      (s.buildAfter work segments moves).Noted own ({} :: s.stages {} 0 segments) := by
  let stages := {} :: s.stages {} 0 segments
  have hlineup : Lineup s.units stages := s.lineup segments
  have hall := BuildRun.after_induction
    (P := fun b => b.Sound (s.rules work) stages ∧ b.Accounted stages ∧
      b.PlansKept (s.rules work) ∧ b.Traced stages ∧ b.Noted own stages)
    (fun ⟨hb, haccounted, hplans, htraced, hnoted⟩ hstep =>
      ⟨hb.step hlineup hstep, haccounted.step hb hstep, hplans.step hb hstep,
        htraced.step hb haccounted hlineup.nodup_pairs (s.pairwise_stages_le segments) hstep,
        hnoted.step hb htraced haccounted hlineup.nodup_pairs hplans
          (s.pairwise_stages_le segments) hwork hstep⟩)
    ⟨s.sound_start work segments, s.accounted_start segments,
      s.plansKept_buildAfter work segments [], s.traced_start segments, s.noted_start segments⟩
    moves
  exact hall.2.2.2

/-- In segments that there are not, nothing has been finished. -/
theorem finishedIn_of_length_le {own : ExecutionPlan → List String} (hwork : work.Contributes own)
    (moves : List BuildRun.Move) (id : String) {segment : Nat} (hle : segments.length ≤ segment) :
    (s.buildAfter work segments moves).finishedIn id segment = [] := by
  obtain ⟨htraced, -⟩ := s.noted_buildAfter work segments hwork moves
  refine BuildRun.finishedIn_eq_nil fun entry hentry heq => ?_
  have hknown := htraced.known entry hentry
  rw [s.flatMap_pairs_eq_parts, heq] at hknown
  obtain ⟨⟨part, position⟩, hpart, hmem⟩ := List.mem_flatMap.1 hknown
  obtain ⟨unit, -, hpair⟩ := List.mem_map.1 hmem
  have hlt := (List.mem_zipIdx_iff_getElem?.1 hpart)
  obtain ⟨hlt, -⟩ := List.getElem?_eq_some_iff.1 hlt
  have hposition : position = segment := (Prod.mk.inj hpair).2
  omega

end Session

namespace Executor

/-- At every moment of every build, with a runner that does not touch what has been noted in a
state: the state of each unit is either kept by the build or has been taken along by one lane; it is
the one that the lane before has left, or the initial one if there was none, and a lane works from
it. A state that is kept has, segment after segment, the steps of the unit's own plans that ran to
their ends. A result tells how many of them there are in its segment: they are the first ones of the
plan, and all of them if the unit was built. -/
theorem states_are_handed_on (x : Executor) (hrunner : x.runner.KeepsExecuted) (s : Session)
    (segments : List Segment) (moves : List BuildRun.Move) :
    let b := s.buildAfter x.work segments moves
    let history := s.recordedAfter x.work segments moves
    (b.states.map (·.1) ++ b.active.map (·.unit)).Perm s.units.ids ∧
    (b.isOver = true → b.active = []) ∧
    (∀ unit ∈ s.units.units, unit.id ∉ b.active.map (·.unit) →
      Keyed.find? unit.id b.states = some (unit.stateAfter history) ∧
      (unit.stateAfter history).executed =
        (List.range segments.length).flatMap (b.finishedIn unit.id)) ∧
    (∀ lane ∈ b.active, ∃ unit ∈ s.units.units, ∃ plan, unit.id = lane.unit ∧
      lane.before = unit.stateAfter history ∧
      lane.work = x.work lane.number lane.unit lane.before plan) ∧
    ∀ result ∈ b.summary.results, ∃ stage ∈ s.stages {} 0 segments,
      b.Tells x.ownStepsOf stage result := by
  intro b history
  have hwork := x.work_contributes hrunner
  have hsound : b.Sound (s.rules x.work) _ := s.sound_buildAfter x.work segments moves
  have howned : b.Owned s.units history := s.owned_buildAfter x.work segments moves
  have hplans : b.PlansKept (s.rules x.work) := s.plansKept_buildAfter x.work segments moves
  obtain ⟨htraced, hnoted⟩ := s.noted_buildAfter x.work segments hwork moves
  refine ⟨howned.perm hsound.consistent.nodup_active, ?_, ?_, ?_, ?_⟩
  · intro hover
    exact List.map_eq_nil_iff.1 (hsound.outstanding_of_isOver hover).1
  · intro unit hunit hidle
    obtain ⟨state, hfind⟩ :=
      Option.isSome_iff_exists.1 (howned.idle unit.id (List.mem_map_of_mem hunit) hidle)
    obtain ⟨-, same, hsame, hid, rfl⟩ := howned.kept unit.id state hfind
    obtain rfl := UnitGraph.eq_of_mem_units hsame hunit hid
    refine ⟨hfind, ?_⟩
    have hkept := hnoted.kept same.id hidle
    rw [BuildRun.keptState, hfind] at hkept
    refine hkept.trans (flatMap_range_eq ?_ ?_)
    · intro segment hlt
      exact htraced.finishedIn_later same.id hlt
    · intro segment hle
      exact s.finishedIn_of_length_le x.work segments hwork moves same.id hle
  · intro lane hlane
    obtain ⟨unit, hunit, hid, hbefore⟩ := howned.lanes lane hlane
    obtain ⟨plan, -, hplan⟩ := hplans.lanes lane hlane
    exact ⟨unit, hunit, plan, hid, hbefore, hplan⟩
  · intro result hresult
    obtain ⟨stage, hmem, htells⟩ := hnoted.results result hresult
    rcases List.mem_cons.1 hmem with rfl | hmem
    · exact absurd htells.mem List.not_mem_nil
    · exact ⟨stage, hmem, htells⟩

end Executor

/-! ### A unit in two segments -/

namespace Publishing

open BuildRun

/-- A session in which the unit of the site is alone. -/
def site : Session where
  workspace := {
    units := {
      units := [unit]
      sorted := [unit]
      arranged := ⟨rfl, trivial⟩ }
    root := "app"
    contains_root := rfl }
  planner := planner
  settings := { policy := .failNever }

/-- What a step of the site is when it is executed. -/
def execution (goal phase : String) : Execution where
  step :=
    { descriptor := descriptor goal
      executionId := goal
      phase := some phase
      source := .lifecycle
      configuration := { name := "configuration" } }
  forks := .notForking

/-- The site is rendered, and then it is rendered again and published. -/
def rendering : List Segment := [⟨[.phase "website"], false⟩, ⟨[.phase "publish"], false⟩]

/-- The stages of that. -/
def renderingStages : List Stage :=
  let stage position executions :=
    { position, members := [unit], plans := [("app", .ok ⟨"app", executions⟩)] }
  let website := [execution "copy" "website", execution "tidy" "website"]
  [stage 0 website, stage 1 (website ++ [execution "sign" "publish"])]

/-- Two segments are built of the site, the first of which stops earlier in the lifecycle. -/
theorem stages_rendering : site.stages {} 0 rendering = renderingStages := by
  cbv

/-- An executor for which the second step fails as long as only one has run to its end. -/
def wary : Executor where
  units := site.units
  runner := fun _ call =>
    if call.step.descriptor.goal = "tidy" ∧ call.state.executed.length = 1 then
      (.error ["no luck"], call.state)
    else (.ok (), call.state)
  resolver := Resolver.none

/-- The moves of two segments in which nothing is left undone. -/
def twice : List Move :=
  let once := .replicate 4 .coordinate ++ .replicate 20 (.work 0) ++ .replicate 2 .coordinate
  once ++ once

/-- The build after them. -/
def built : BuildRun :=
  ({ site.start [] with rest := renderingStages } : BuildRun).after (site.rules wary.work) twice

/-- The moves lead to the build in which both segments are over. -/
theorem buildAfter_twice : site.buildAfter wary.work rendering twice = built := by
  unfold built Session.buildAfter Session.start
  rw [stages_rendering]

/-- The unit of the site comes to its second segment with what it has executed in the first one, in
which it has failed. -/
theorem site_is_handed_on :
    wary.runner.KeepsExecuted ∧
    (Keyed.find? "app" (site.buildAfter wary.work rendering twice).states).map (·.executed) =
      some ["acme-plugin:copy (copy)", "acme-plugin:copy (copy)", "acme-plugin:tidy (tidy)",
        "acme-plugin:sign (sign)"] ∧
    (site.buildAfter wary.work rendering twice).summary.results.map (·.steps) = [1, 3] := by
  have hrunner : wary.runner.KeepsExecuted := by
    intro history call
    dsimp only [wary]
    split <;> rfl
  obtain ⟨-, hactive, hkept, -, -⟩ := wary.states_are_handed_on hrunner site rendering twice
  rw [buildAfter_twice] at hactive hkept ⊢
  have hidle : built.active = [] := hactive (by decide +kernel)
  obtain ⟨hfind, hexecuted⟩ := hkept unit List.mem_cons_self (by simp [hidle])
  refine ⟨hrunner, ?_, by decide +kernel⟩
  rw [show Keyed.find? "app" built.states = _ from hfind, Option.map_some, hexecuted]
  decide +kernel

end Publishing

end PhasedBuild
