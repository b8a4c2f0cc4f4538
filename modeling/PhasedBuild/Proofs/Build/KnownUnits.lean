import PhasedBuild.Proofs.Build.Unplannable
import PhasedBuild.Proofs.Run.KnownUnits

/-!
# Builds of units that are known

The parts of a build look units up independently of each other: the coordinator a plan for each unit
that it turns to, a lane its unit, a step the units on which it forks work, and a resolver that goes
by the graph the units whose artifacts are asked for. Each of them has an error for a unit that it
does not find. All take the units from one graph, so none of these errors comes up.

* `Fault.IsStray`: the faults of a build whose parts do not know of the same units.
* `Complaint`: what is said in a build of what went wrong. `Complaint.ne_message`: it never reads
  like a stray fault.
* `BuildRules.KeepsTo`: what the plans and the work of a build must be like for that.
* `BuildRun.Explained`: what is said in a build are such complaints. `Explained.step`: every step
  keeps it.
* `Session.build_knows_its_units`: no build of a session comes to a stray fault.
-/

namespace PhasedBuild

open BuildRun

/-! ### Stray faults -/

namespace Fault

/-- A unit is to be built and has no plan, or a unit does not exist that is to be built or on which
work is forked. -/
inductive IsStray : Fault → Prop
  | unplanned (unit : String) : IsStray (.unplannedUnit unit)
  | outside (unit : String) : IsStray (.unitOutsideBuild unit)
  | forked (unit : String) : IsStray (.forkedUnitOutsideBuild unit)

/-- Why a list of written tasks makes no sense. -/
inductive HindersTasks : Fault → Prop
  | none : HindersTasks .noTasks
  | empty : HindersTasks .emptyTask
  | invalid (raw : String) : HindersTasks (.invalidTask raw)
  | shorthand (shorthand : String) : HindersTasks (.unknownShorthand shorthand)
  | goal {f : Fault} (h : f.DeniesGoal) : HindersTasks f

variable {units : UnitGraph} {resolver : Resolver} {f : Fault}

/-- Why a goal cannot be found is no stray fault. -/
theorem DeniesGoal.not_isStray (h : f.DeniesGoal) : ¬ f.IsStray := by
  cases h <;> exact nofun

/-- Why tasks make no sense is no stray fault. -/
theorem HindersTasks.not_isStray (h : f.HindersTasks) : ¬ f.IsStray := by
  cases h with
  | goal h => exact h.not_isStray
  | _ => exact nofun

/-- Why a unit has no plan is no stray fault. -/
theorem HindersPlan.not_isStray (h : f.HindersPlan) : ¬ f.IsStray := by
  cases h with
  | phase h =>
    rcases h with hphase | hgoal
    · cases hphase <;> exact nofun
    · exact hgoal.not_isStray
  | shorthand _ => exact nofun
  | fork _ _ => exact nofun

/-- Why work fails on units of the build is no stray fault. -/
theorem HindersWork.not_isStray (h : f.HindersWork units resolver) : ¬ f.IsStray := by
  cases h <;> exact nofun

end Fault

/-! ### Tasks -/

/-- A written task that cannot be read makes no sense. -/
theorem Task.hindersTasks_of_parse {raw : String} {f : Fault} (h : Task.parse raw = .error f) :
    f.HindersTasks := by
  unfold Task.parse at h
  dsimp only at h
  split at h
  next => exact Except.error.inj h ▸ .empty
  next =>
    split at h
    next =>
      unfold GoalSpec.parse at h
      split at h
      next => cases h
      next => exact Except.error.inj h ▸ .invalid _
    next => cases h

/-- A list of tasks has no segments because it is empty, or because one of them makes no sense. -/
theorem Segment.failsFor_ofTasks (c : Catalog) (tasks : List String) :
    FailsFor Fault.HindersTasks (Segment.ofTasks c.lookup tasks) := by
  unfold Segment.ofTasks
  split
  next => exact .error .none
  next =>
    refine .bind (.mapM fun raw _ => ?_) fun _ => .ok _
    unfold classify
    split
    next f hparse => exact .error (Task.hindersTasks_of_parse hparse)
    next task _ =>
      refine .map ?_
      cases task with
      | phase name => exact .ok _
      | goal goal =>
        refine .bind ((c.failsFor_coordinate goal).imp ?_) fun plugin => .bind ?_ fun _ => .ok _
        · rintro _ ⟨name, rfl⟩
          exact .shorthand name
        · exact (c.failsFor_resolve plugin goal.goal).imp fun _ h => .goal h

/-! ### Complaints -/

/-- A text begins with some letters. -/
def Opens (letters text : String) : Prop :=
  letters.toList <+: text.toList

instance (letters text : String) : Decidable (Opens letters text) :=
  inferInstanceAs (Decidable (_ <+: _))

/-- How a text begins does not depend on how it goes on. -/
theorem Opens.append {letters text : String} (h : Opens letters text) (rest : String) :
    Opens letters (text ++ rest) := by
  unfold Opens
  rw [String.toList_append]
  exact h.trans (List.prefix_append _ _)

/-- What is said of a build of units: why a unit has no plan, why its work failed, or why it was not
attempted. -/
inductive Complaint (units : UnitGraph) (resolver : SharedResolver) : String → Prop
  | plan {fault : Fault} (h : fault.HindersPlan) : Complaint units resolver fault.message
  | work {fault : Fault} {lane : Nat} (h : fault.HindersWork units (resolver.forLane lane)) :
    Complaint units resolver fault.message
  | skip (reason : SkipReason) : Complaint units resolver reason.message

/-- How stray faults begin. -/
def strayOpenings : List String :=
  ["No e", "Unit", "Fork"]

/-- How complaints begin. -/
def complaintOpenings : List String :=
  ["Unkn", "Phas", "Plug", "Coul", "No p", "Step", "Goal", "Fail", "buil", "an u"]

section openings

variable {units : UnitGraph} {resolver : SharedResolver} {fault : Fault}

/-- The message of a stray fault begins in one of a few ways. -/
theorem Fault.IsStray.opens (h : fault.IsStray) :
    ∃ letters ∈ strayOpenings, Opens letters fault.message := by
  cases h with
  | unplanned unit => exact ⟨"No e", by decide, .append (.append (by decide) _) _⟩
  | outside unit => exact ⟨"Unit", by decide, .append (.append (by decide) _) _⟩
  | forked unit => exact ⟨"Fork", by decide, .append (.append (by decide) _) _⟩

/-- What is said of a phase that cannot be found begins like a complaint. -/
theorem Fault.HindersPhase.opens (h : fault.HindersPhase) :
    ∃ letters ∈ complaintOpenings, Opens letters fault.message := by
  rcases h with hphase | hgoal
  · cases hphase with
    | unknownPhase phase available =>
      refine ⟨"Unkn", by decide, ?_⟩
      repeat apply Opens.append
      decide
    | unknownLifecycle lifecycle =>
      exact ⟨"Unkn", by decide, .append (.append (by decide) _) _⟩
    | phaseOutsideLifecycle raw lifecycle =>
      refine ⟨"Phas", by decide, ?_⟩
      repeat apply Opens.append
      decide
    | unknownPackaging packaging =>
      exact ⟨"Unkn", by decide, .append (.append (by decide) _) _⟩
  · cases hgoal with
    | unknownPlugin plugin => exact ⟨"Plug", by decide, .append (.append (by decide) _) _⟩
    | unknownGoal goal plugin available =>
      refine ⟨"Coul", by decide, ?_⟩
      repeat apply Opens.append
      decide

/-- What is said of a unit that has no plan begins like a complaint. -/
theorem Fault.HindersPlan.opens (h : fault.HindersPlan) :
    ∃ letters ∈ complaintOpenings, Opens letters fault.message := by
  cases h with
  | phase h => exact h.opens
  | shorthand name => exact ⟨"No p", by decide, .append (.append (by decide) _) _⟩
  | fork step h => exact ⟨"Step", by decide, .append (.append (.append (by decide) _) _) _⟩

/-- What is said of work that fails begins like a complaint. -/
theorem Fault.HindersWork.opens {answers : Resolver} (h : fault.HindersWork units answers) :
    ∃ letters ∈ complaintOpenings, Opens letters fault.message := by
  cases h with
  | project => exact ⟨"Goal", by decide, by decide⟩
  | network => exact ⟨"Goal", by decide, by decide⟩
  | step step unit reasons =>
    refine ⟨"Fail", by decide, ?_⟩
    repeat apply Opens.append
    decide
  | artifacts unit hrefused =>
    exact ⟨"Coul", by decide, .append (.append (.append (by decide) _) _) _⟩

/-- What is said of a unit that is skipped begins like a complaint. -/
theorem SkipReason.opens (reason : SkipReason) :
    ∃ letters ∈ complaintOpenings, Opens letters reason.message := by
  cases reason with
  | halted => exact ⟨"buil", by decide, by decide⟩
  | blacklisted => exact ⟨"an u", by decide, by decide⟩

/-- No complaint reads like a stray fault. -/
theorem Complaint.ne_message {text : String} (h : Complaint units resolver text)
    (hstray : fault.IsStray) : text ≠ fault.message := by
  rintro rfl
  have hcomplaint : ∃ letters ∈ complaintOpenings, Opens letters fault.message := by
    generalize fault.message = text at h
    cases h with
    | plan h => exact h.opens
    | work h => exact h.opens
    | skip reason => exact reason.opens
  have happart : ∀ a ∈ complaintOpenings, ∀ b ∈ strayOpenings, ¬ Opens a b ∧ ¬ Opens b a := by
    decide
  -- names of any sort may follow, but the beginnings differ
  obtain ⟨a, ha, hopens⟩ := hcomplaint
  obtain ⟨b, hb, hopens'⟩ := hstray.opens
  rcases List.prefix_or_prefix_of_prefix hopens hopens' with hab | hba
  · exact (happart a ha b hb).1 hab
  · exact (happart a ha b hb).2 hba

end openings

/-- What is said of the end of a unit. -/
def Ending.complaint? : Ending → Option String
  | .succeeded _ _ => none
  | .failed error _ _ => some error.message
  | .skipped reason => some reason.message

/-- A unit comes to its end for a reason. -/
def Ending.Explained (units : UnitGraph) (resolver : SharedResolver) (ending : Ending) : Prop :=
  ∀ text, ending.complaint? = some text → Complaint units resolver text

/-- The error of a result is what is said of the end of its unit. -/
theorem Ending.error_result (ending : Ending) (unit : String) (segment : Nat) :
    (ending.result unit segment).error = ending.complaint? := by
  cases ending <;> rfl

/-- The event of the end of a unit says what its result says. -/
theorem Ending.complaint?_change (ending : Ending) (unit : String) (segment : Nat) :
    (Event.ofUnit unit segment ending.change).complaint? = ending.complaint? := by
  cases ending <;> rfl

/-! ### Steps of a build -/

/-- The work of a lane keeps to the units of the build. -/
structure LaneWork.KeepsTo (units : UnitGraph) (resolver : SharedResolver) (lane : Nat)
    (work : LaneWork) : Prop where
  actions : ∀ action ∈ work.actions, action.KeepsTo units (Complaint units resolver)
  error : ∀ e, work.result = .error e → e.fault.HindersWork units (resolver.forLane lane)

/-- The work of an executor on a plan that forks within the build keeps to the units of the
build. -/
theorem Executor.keepsTo_work {x : Executor} {unit : BuildUnit} (hunit : unit ∈ x.units.units)
    {plan : ExecutionPlan} (hstays : ∀ e ∈ plan.executions, e.StaysWithin x.units unit.id)
    (number : Nat) (before : UnitState) :
    (x.work number unit.id before plan).KeepsTo x.units x.resolver number := by
  have hget : x.units.get? unit.id = some unit := UnitGraph.get?_eq_some_iff.2 ⟨hunit, rfl⟩
  obtain ⟨hactions, herror⟩ := x.execute_keepsTo number hunit hstays before
  have hcomplaint : ∀ text, x.Complains number text → Complaint x.units x.resolver text := by
    rintro _ ⟨fault, hfault, rfl⟩
    exact .work hfault
  simp only [work, hget]
  exact ⟨fun action haction => (hactions action haction).imp hcomplaint, herror⟩

/-- The plans of the stages want for reasons of planning only, and the work of a plan keeps to the
units of the build. -/
structure BuildRules.KeepsTo (rules : BuildRules) (resolver : SharedResolver)
    (stages : List Stage) : Prop where
  planned : ∀ stage ∈ stages, ∀ id ∈ stage.ids, ∀ error, stage.plans.get id = .error error →
    error.fault.HindersPlan
  worked : ∀ stage ∈ stages, ∀ id ∈ stage.ids, ∀ plan, stage.plans.get id = .ok plan →
    ∀ number before, (rules.work number id before plan).KeepsTo rules.units resolver number

namespace BuildRun

variable {rules : BuildRules} {resolver : SharedResolver} {stages : List Stage} {b b' : BuildRun}

section kept

variable (hkeeps : rules.KeepsTo resolver stages) (hb : b.Sound rules stages)
  (hplans : b.PlansKept rules)
include hkeeps hb hplans

/-- Where the unit that the coordinator turns to has no plan, planning has failed. -/
theorem hindersPlan_of_walking {id : String} {rest : List String}
    (hposition : b.position = .walking (id :: rest)) {error : BuildError}
    (h : b.plans.get id = .error error) : error.fault.HindersPlan := by
  have hready := hb.mem_ready hposition
  rw [hplans.get_of_mem_ready hb hready] at h
  exact hkeeps.planned _ hb.stage_mem id (hb.mem_ids_of_mem_ready hready) error h

/-- The work of every active lane keeps to the units of the build. -/
theorem keepsTo_of_active {lane : Lane} (hlane : lane ∈ b.active) :
    lane.work.KeepsTo rules.units resolver lane.number := by
  obtain ⟨plan, hplan, hwork⟩ := hplans.lanes lane hlane
  rw [hwork]
  exact hkeeps.worked _ hb.stage_mem _ (hb.mem_ids_of_mem_active hlane) plan hplan _ _

/-- A unit is refused because it has no plan, or it is skipped. -/
theorem explained_of_refusal {id : String} {rest : List String} {ending : Ending}
    {plans : UnitPlans} (hposition : b.position = .walking (id :: rest))
    (hrefusal : Refusal b id ending plans) : ending.Explained rules.units resolver := by
  cases hrefusal with
  | skip _ =>
    rintro _ ⟨⟩
    exact .skip _
  | unplanned _ hplan =>
    rintro _ ⟨⟩
    exact .plan (hindersPlan_of_walking hkeeps hb hplans hposition hplan)

/-- Whatever the work of an active lane comes to, its unit comes to its end for a reason. -/
theorem explained_of_active {lane : Lane} (hlane : lane ∈ b.active) :
    lane.ending.Explained rules.units resolver := by
  unfold Lane.ending
  split
  next => exact nofun
  next error herror =>
    rintro _ ⟨⟩
    exact .work ((keepsTo_of_active hkeeps hb hplans hlane).error error herror)

end kept

/-- What the results and the events of a build say are complaints, and artifacts are asked for units
of the build only. -/
structure Explained (units : UnitGraph) (resolver : SharedResolver) (b : BuildRun) : Prop where
  results : ∀ result ∈ b.summary.results, ∀ text, result.error = some text →
    Complaint units resolver text
  trace : ∀ entry ∈ b.trace, entry.action.KeepsTo units (Complaint units resolver)

namespace Explained

/-- A unit that comes to its end for a reason adds complaints only. -/
theorem close (h : b.Explained rules.units resolver) (id : String) {ending : Ending}
    (hending : ending.Explained rules.units resolver) :
    (b.close rules id ending).Explained rules.units resolver where
  results := by
    refine List.forall_mem_append.2 ⟨h.results, List.forall_mem_singleton.2 fun text htext => ?_⟩
    rw [ending.error_result] at htext
    exact hending text htext
  trace := by
    refine List.forall_mem_append.2 ⟨h.trace, List.forall_mem_singleton.2 fun text htext => ?_⟩
    rw [ending.complaint?_change] at htext
    exact hending text htext

/-- An action that keeps to the units of the build adds complaints and requests for such units
only. -/
theorem note (h : b.Explained rules.units resolver) (unit : String) {action : Action}
    (haction : action.KeepsTo rules.units (Complaint rules.units resolver)) :
    (b.note unit action).Explained rules.units resolver where
  results := h.results
  trace := List.forall_mem_append.2 ⟨h.trace, List.forall_mem_singleton.2 haction⟩

/-- What a step adds are complaints, and requests for units of the build. -/
theorem step (h : b.Explained rules.units resolver) (hkeeps : rules.KeepsTo resolver stages)
    (hb : b.Sound rules stages) (hplans : b.PlansKept rules) (hstep : Step rules b b') :
    b'.Explained rules.units resolver := by
  cases hstep with
  | idle => exact h
  | advance hstep =>
    cases hstep with
    | onward _ => exact ⟨h.results, h.trace⟩
    | @refuse id _ _ _ hposition hrefusal =>
      have hclosed := h.close id (explained_of_refusal hkeeps hb hplans hposition hrefusal)
      exact ⟨hclosed.results, hclosed.trace⟩
    | @start id _ plan _ _ _ _ =>
      have hstarted : Event.complaint? (.ofUnit id b.stage.position .started) = none := rfl
      have hnoted := h.note id (Action.keepsTo_of_eq_none hstarted)
      exact ⟨hnoted.results, hnoted.trace⟩
    | @record lane _ _ _ hdelivered =>
      have hlane := mem_active_of_delivered hdelivered
      have hclosed := h.close lane.unit (explained_of_active hkeeps hb hplans hlane)
      exact ⟨hclosed.results, hclosed.trace⟩
    | enter _ _ => exact ⟨h.results, h.trace⟩
  | @act _ _ lane action hworking hnext =>
    have hwork := keepsTo_of_active hkeeps hb hplans (mem_active_of_working hworking)
    have hnoted := h.note lane.unit (hwork.actions action (List.mem_of_getElem? hnext))
    exact ⟨hnoted.results, hnoted.trace⟩
  | deliver _ _ _ => exact ⟨h.results, h.trace⟩
  | release _ => exact ⟨h.results, h.trace⟩

end Explained

end BuildRun

/-! ### Builds of sessions -/

namespace Session

variable (s : Session) (runner : Runner) (resolver : SharedResolver) (segments : List Segment)

/-- The plan of a unit of the build stays within the build, whoever asks for it. -/
theorem staysWithin_of_plan {log : PlanningLog} {unit : BuildUnit} (hunit : unit ∈ s.units.units)
    {tasks : List Task} {plan : ExecutionPlan} (h : (s.plan log unit tasks).1 = .ok plan) :
    ∀ e ∈ plan.executions, e.StaysWithin s.units unit.id := by
  intro e he
  obtain ⟨-, hplanned⟩ := s.planner.expands_plan s.units unit tasks log trivial
  obtain ⟨step, hexpands⟩ := (hplanned plan h).2 e he
  exact hexpands.staysWithin hunit

/-- The plans and the lanes of a session keep to its units. -/
theorem keepsTo_rules : (s.rules (s.executor runner resolver).work).KeepsTo resolver
    ({} :: s.stages {} 0 segments) where
  planned := by
    intro stage hstage id hid error h
    rcases List.mem_cons.1 hstage with rfl | hstage
    · cases hid
    · exact s.hindersPlan_of_get segments hstage hid h
  worked := by
    intro stage hstage id hid plan h number before
    rcases List.mem_cons.1 hstage with rfl | hstage
    · cases hid
    · obtain ⟨unit, hunit, rfl, tasks, log, hplan⟩ := s.exists_plan_of_get segments hstage hid h
      exact Executor.keepsTo_work (x := s.executor runner resolver) hunit
        (s.staysWithin_of_plan hunit hplan) number before

/-- A build that starts has said nothing. -/
theorem explained_start : (s.start segments).Explained s.units resolver where
  results := fun _ hresult => absurd hresult List.not_mem_nil
  trace := fun _ hentry => absurd hentry List.not_mem_nil

/-- At every moment of a build, all that it says is a complaint. -/
theorem explained_runAfter (moves : List Move) :
    (s.runAfter runner resolver segments moves).Explained s.units resolver :=
  have hkeeps := s.keepsTo_rules runner resolver segments
  s.buildAfter_induction _ segments (s.explained_start resolver segments)
    (fun hb hplans hexplained hstep => hexplained.step hkeeps hb hplans hstep) moves

/-- A text stands in results or in reported events. -/
def Shows (summary : BuildSummary) (actions : List Action) (text : String) : Prop :=
  (∃ result ∈ summary.results, result.error = some text) ∨
    ∃ event, .reported event ∈ actions ∧ event.complaint? = some text

variable {s runner resolver segments} (moves : List Move)

/-- Every text that stands in the results or in the reported events of a build is a complaint. -/
theorem complaint_of_shows {text : String}
    (h : Shows (s.runAfter runner resolver segments moves).summary
      ((s.runAfter runner resolver segments moves).trace.map (·.action)) text) :
    Complaint s.units resolver text := by
  have hexplained := s.explained_runAfter runner resolver segments moves
  rcases h with ⟨result, hresult, htext⟩ | ⟨event, hevent, htext⟩
  · exact hexplained.results result hresult text htext
  · obtain ⟨entry, hentry, heq⟩ := List.mem_map.1 hevent
    have hkeeps := hexplained.trace entry hentry
    rw [heq] at hkeeps
    exact hkeeps text htext

variable {moves}

/-- The events at the beginning and at the end of a build complain of nothing. -/
theorem complaint_of_report {tasks : List String} {pace : Pace} {report : BuildReport}
    (h : s.build runner resolver tasks pace = .ok report) {text : String}
    (htext : Shows report.summary report.actions text) : Complaint s.units resolver text := by
  obtain ⟨segments, -, h⟩ := exists_of_bind_eq_ok h
  obtain ⟨moves, hmoves, -⟩ :=
    s.exists_buildSegments_eq (s.executor runner resolver).work pace segments
  obtain rfl := Except.ok.inj h
  rw [hmoves] at htext
  refine complaint_of_shows moves (htext.imp_right ?_)
  rintro ⟨event, hevent, hcomplaint⟩
  refine ⟨event, ?_, hcomplaint⟩
  simp only [List.mem_append, List.mem_singleton, Action.reported.injEq] at hevent
  rcases hevent with (rfl | hevent) | rfl
  · cases hcomplaint
  · exact hevent
  · cases hcomplaint

/-- The unit that the coordinator turns to has a plan, or planning has failed. -/
theorem exists_plan_of_walking {id : String} {rest : List String}
    (hposition : (s.runAfter runner resolver segments moves).position = .walking (id :: rest)) :
    ∃ plan, Keyed.find? id (s.runAfter runner resolver segments moves).plans = some plan ∧
      ∀ error, plan = .error error → error.fault.HindersPlan := by
  have hhinders : ∀ error,
      (s.runAfter runner resolver segments moves).plans.get id = .error error →
        error.fault.HindersPlan := fun error h =>
    hindersPlan_of_walking (s.keepsTo_rules runner resolver segments)
      (s.sound_buildAfter _ segments moves) (s.plansKept_buildAfter _ segments moves) hposition h
  unfold UnitPlans.get at hhinders
  cases hplan : Keyed.find? id (s.runAfter runner resolver segments moves).plans with
  | none =>
    rw [hplan] at hhinders
    exact absurd (.unplanned id) (hhinders _ rfl).not_isStray
  | some plan =>
    rw [hplan] at hhinders
    exact ⟨plan, rfl, hhinders⟩

/-- The lanes of a session work on its units. -/
theorem known_of_active {lane : Lane}
    (hlane : lane ∈ (s.runAfter runner resolver segments moves).active) :
    lane.unit ∈ s.units.ids ∧ lane.work.KeepsTo s.units resolver lane.number := by
  have hb := s.sound_buildAfter (s.executor runner resolver).work segments moves
  have hfits := (s.lineup segments).fits _ hb.stage_mem
  refine ⟨hfits.mem_ids (hb.mem_ids_of_mem_active hlane), ?_⟩
  exact keepsTo_of_active (s.keepsTo_rules runner resolver segments) hb
    (s.plansKept_buildAfter _ segments moves) hlane

/-- No build of a session comes to a stray fault: no list of tasks is refused for one, and no result
and no event of a build reads like one. At every moment of a build the coordinator finds a plan for
the unit that it turns to, or the error that planning has come to; the lanes work on units of the
session, and none of them fails for a stray fault. Artifacts are asked for such units only as the
graph of the session knows, so no lane fails for want of artifacts that is answered by that
graph. -/
theorem build_knows_its_units (s : Session) (runner : Runner) (resolver : SharedResolver) :
    (∀ tasks pace error, s.build runner resolver tasks pace = .error error →
      ¬ error.fault.IsStray) ∧
    (∀ tasks pace report, s.build runner resolver tasks pace = .ok report →
      ∀ text, Shows report.summary report.actions text →
        ∀ fault : Fault, fault.IsStray → text ≠ fault.message) ∧
    ∀ segments moves,
      let b := s.runAfter runner resolver segments moves
      (∀ id rest, b.position = .walking (id :: rest) →
        ∃ plan, Keyed.find? id b.plans = some plan ∧
          ∀ error, plan = .error error → ¬ error.fault.IsStray) ∧
      (∀ lane ∈ b.active, lane.unit ∈ s.units.ids ∧
        ∀ error, lane.work.result = .error error → ¬ error.fault.IsStray ∧
          (resolver.forLane lane.number = .ofGraph s.units →
            ∀ unit reasons, error.fault ≠ .unresolvedDependencies unit reasons)) ∧
      (∀ entry ∈ b.trace, ∀ request, entry.action = .requested request →
        ∀ unit : BuildUnit, unit.id = request.unit → ∀ history scopes,
          ∃ artifacts, Resolver.ofGraph s.units history unit scopes = .ok artifacts) ∧
      ∀ text, Shows b.summary (b.trace.map (·.action)) text →
        ∀ fault : Fault, fault.IsStray → text ≠ fault.message := by
  refine ⟨?tasks, ?reports, fun segments moves => ⟨?plans, ?lanes, ?requests, ?texts⟩⟩
  case tasks =>
    intro tasks pace error h
    rcases bind_eq_error_iff.1 h with hsegments | ⟨_, -, h⟩
    · exact (Segment.failsFor_ofTasks s.planner.catalog tasks error hsegments).not_isStray
    · cases h
  case reports =>
    exact fun _ _ _ h _ htext _ hstray => (complaint_of_report h htext).ne_message hstray
  case plans =>
    intro id rest hposition
    obtain ⟨plan, hplan, hhinders⟩ := exists_plan_of_walking hposition
    exact ⟨plan, hplan, fun error herror => (hhinders error herror).not_isStray⟩
  case lanes =>
    intro lane hlane
    obtain ⟨hid, hkeeps⟩ := known_of_active hlane
    refine ⟨hid, fun error herror => ⟨(hkeeps.error error herror).not_isStray, ?_⟩⟩
    intro hgraph unit reasons hfault
    have hhinders := hkeeps.error error herror
    rw [hfault, hgraph] at hhinders
    cases hhinders with
    | artifacts _ hrefused => exact Resolver.not_refuses_ofGraph hrefused
  case requests =>
    intro entry hentry request hrequest unit hunit history scopes
    have hkeeps := (s.explained_runAfter runner resolver segments moves).trace entry hentry
    rw [hrequest] at hkeeps
    have hcontains : s.units.contains unit.id = true :=
      UnitGraph.get?_isSome_iff.2 (hunit ▸ hkeeps)
    exact ⟨_, if_pos hcontains⟩
  case texts => exact fun _ htext _ hstray => (complaint_of_shows moves htext).ne_message hstray

end Session

end PhasedBuild
