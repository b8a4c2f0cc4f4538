import PhasedBuild.Proofs.Build.Invariant
import PhasedBuild.Proofs.Keyed

/-!
# What is done with the plans of a stage

The plans of a stage are used one by one. A plan is given up when its lane is started, and an error
that stands in the place of a plan when it has been reported.

* `BuildRun.PlansKept`: the plans of the units that wait are still those of the stage, and each
  active lane does the work of its unit's plan.
* `Session.plansKept_buildAfter`: so it is at all moments of a build.
* `Session.buildAfter_induction`: what else is kept by the steps of a build.
-/

namespace PhasedBuild

namespace BuildRun

variable {rules : BuildRules} {stages : List Stage} {b b' : BuildRun}

/-- Taking one unit's plan away leaves those of all others. -/
theorem get_erase_of_ne {id other : String} (hne : other ≠ id) (plans : UnitPlans) :
    UnitPlans.get (Keyed.erase id plans) other = plans.get other := by
  rw [UnitPlans.get, Keyed.find?_erase_of_ne hne, UnitPlans.get]

/-- Refusing a unit leaves the plans of all others. -/
theorem Refusal.get_eq {id other : String} {ending : Ending} {plans : UnitPlans}
    (h : Refusal b id ending plans) (hne : other ≠ id) : plans.get other = b.plans.get other := by
  cases h with
  | skip _ => rfl
  | unplanned _ _ => exact get_erase_of_ne hne b.plans

/-- The plans of a stage are put to no other use than they are meant for. -/
structure PlansKept (rules : BuildRules) (b : BuildRun) : Prop where
  pending : ∀ id ∈ b.schedule.pendingIds, b.plans.get id = b.stage.plans.get id
  lanes : ∀ lane ∈ b.active, ∃ plan, b.stage.plans.get lane.unit = .ok plan ∧
    lane.work = rules.work lane.number lane.unit lane.before plan

namespace PlansKept

/-- The plan of a unit that is ready has not been used. -/
theorem get_of_mem_ready (hb : b.Sound rules stages) (h : b.PlansKept rules) {id : String}
    (hready : id ∈ b.schedule.ready) : b.plans.get id = b.stage.plans.get id :=
  h.pending id (hb.mem_pendingIds_of_mem_ready hready)

/-- Refusing a unit uses no plan but its own. -/
theorem refuse (hb : b.Sound rules stages) (h : b.PlansKept rules) {id : String}
    {rest : List String} {ending : Ending} {plans : UnitPlans}
    (hposition : b.position = .walking (id :: rest)) (hrefusal : Refusal b id ending plans) :
    PlansKept rules { b.close rules id ending with plans, position := .walking rest } where
  pending := by
    intro other hother
    obtain ⟨hne, hbefore⟩ :=
      hb.ne_and_mem_of_mem_pendingIds_mark hposition ending.status_ne_pending hother
    exact (hrefusal.get_eq hne).trans (h.pending other hbefore)
  lanes := h.lanes

/-- The plan of a unit that is started goes to its lane. -/
theorem start (hb : b.Sound rules stages) (h : b.PlansKept rules) {id : String}
    {rest : List String} {plan : ExecutionPlan} (hposition : b.position = .walking (id :: rest))
    (hplan : b.plans.get id = .ok plan) :
    PlansKept rules { b.start rules id plan with position := .walking rest } where
  pending := by
    intro other hother
    obtain ⟨hne, hbefore⟩ :=
      hb.ne_and_mem_of_mem_pendingIds_mark hposition UnitStatus.running_ne_pending hother
    exact (get_erase_of_ne hne b.plans).trans (h.pending other hbefore)
  lanes := by
    intro lane hlane
    rcases List.mem_cons.1 ((active_start_perm rules b id plan).mem_iff.1 hlane) with rfl | hbefore
    · have hstage : b.stage.plans.get id = .ok plan := by
        rw [← h.get_of_mem_ready hb (hb.mem_ready hposition)]
        exact hplan
      exact ⟨plan, hstage, rfl⟩
    · exact h.lanes lane hbefore

/-- Recording a result uses no plan. -/
theorem record (hb : b.Sound rules stages) (h : b.PlansKept rules) {lane : Lane} {released : Bool}
    {delivered : List (Lane × Bool)} (hdelivered : b.delivered = (lane, released) :: delivered) :
    PlansKept rules ({ b with delivered }.record rules lane) where
  pending := by
    intro other hother
    have hpending : ({ b with delivered }.record rules lane).schedule.pendingIds =
        b.schedule.pendingIds := hb.pendingIds_mark_of_delivered hdelivered
    exact h.pending other (hpending ▸ hother)
  lanes := by
    intro other hother
    have hperm := active_perm_of_delivered hdelivered
    exact h.lanes other (hperm.mem_iff.2 (List.mem_cons_of_mem _ hother))

/-- The plans of a stage are all there when it begins. -/
theorem enter (hb : b.Sound rules stages) {stage : Stage} {rest : List Stage}
    (hposition : b.position = .ended) : PlansKept rules (b.enter rules stage rest) where
  pending := fun _ _ => rfl
  lanes := by
    intro lane hlane
    have hactive : (b.enter rules stage rest).active = [] := (hb.ended hposition).1
    rw [hactive] at hlane
    cases hlane

/-- What lanes do to their own places and to the queue does not matter. -/
theorem of_lanes (h : b.PlansKept rules) (hplans : b'.plans = b.plans)
    (hstage : b'.stage = b.stage) (hschedule : b'.schedule = b.schedule)
    (hlanes : ∀ lane ∈ b'.active, ∃ same ∈ b.active, lane = { same with done := lane.done }) :
    b'.PlansKept rules where
  pending := by
    rw [hplans, hstage, hschedule]
    exact h.pending
  lanes := by
    intro lane hlane
    obtain ⟨same, hsame, heq⟩ := hlanes lane hlane
    rw [heq, hstage]
    exact h.lanes same hsame

/-- Every step keeps the plans. -/
theorem step (hb : b.Sound rules stages) (h : b.PlansKept rules) (hstep : Step rules b b') :
    b'.PlansKept rules := by
  cases hstep with
  | idle => exact h
  | advance hstep =>
    cases hstep with
    | onward _ => exact h.of_lanes rfl rfl rfl fun lane hlane => ⟨lane, hlane, rfl⟩
    | refuse hposition hrefusal => exact h.refuse hb hposition hrefusal
    | start hposition _ hplan _ => exact h.start hb hposition hplan
    | record _ hdelivered => exact h.record hb hdelivered
    | enter hposition _ => exact enter hb hposition
  | act hworking _ =>
    exact h.of_lanes rfl rfl rfl fun _ hother => exists_same_of_act hworking hother
  | deliver hworking _ _ =>
    refine h.of_lanes rfl rfl rfl fun lane hlane => ⟨lane, ?_, rfl⟩
    exact (active_perm_of_working hworking).mem_iff.2 hlane
  | release hdelivered =>
    refine h.of_lanes rfl rfl rfl fun lane hlane => ⟨lane, ?_, rfl⟩
    simpa [active, hdelivered] using hlane

end PlansKept

end BuildRun

namespace Session

variable (s : Session) (work : Work) (segments : List Segment)

/-- At every moment of a build the plans of its stage have been put to their use only. -/
theorem plansKept_buildAfter (moves : List BuildRun.Move) :
    (s.buildAfter work segments moves).PlansKept (s.rules work) := by
  let stages := {} :: s.stages {} 0 segments
  have hstart : (s.start segments).PlansKept (s.rules work) :=
    ⟨fun _ hid => absurd hid List.not_mem_nil, fun _ hlane => absurd hlane List.not_mem_nil⟩
  have hboth := BuildRun.after_induction
    (P := fun b => b.Sound (s.rules work) stages ∧ b.PlansKept (s.rules work))
    (fun hb hstep => ⟨hb.1.step (s.lineup segments) hstep, hb.2.step hb.1 hstep⟩)
    ⟨s.sound_start work segments, hstart⟩ moves
  exact hboth.2

/-- What holds before a build and is kept by every step, as long as nothing goes astray and the
plans are kept, holds at all moments of the build. -/
theorem buildAfter_induction {P : BuildRun → Prop} (hstart : P (s.start segments))
    (hstep : ∀ {b b' : BuildRun}, b.Sound (s.rules work) ({} :: s.stages {} 0 segments) →
      b.PlansKept (s.rules work) → P b → BuildRun.Step (s.rules work) b b' → P b')
    (moves : List BuildRun.Move) : P (s.buildAfter work segments moves) := by
  let stages := {} :: s.stages {} 0 segments
  have hall := BuildRun.after_induction
    (P := fun b => b.Sound (s.rules work) stages ∧ b.PlansKept (s.rules work) ∧ P b)
    (fun ⟨hb, hplans, h⟩ hnext => ⟨hb.step (s.lineup segments) hnext, hplans.step hb hnext,
      hstep hb hplans h hnext⟩)
    ⟨s.sound_start work segments, s.plansKept_buildAfter work segments [], hstart⟩ moves
  exact hall.2.2

end Session

end PhasedBuild
