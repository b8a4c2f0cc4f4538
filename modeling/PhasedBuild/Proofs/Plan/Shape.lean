import PhasedBuild.Plan.Tasks
import PhasedBuild.Proofs.Plan.Expansion
import PhasedBuild.Proofs.Plan.Forks

/-!
# The shape of plans

A plan is expanded all through: whoever runs it or prints it finds at every depth that the forked
work of a step has been settled, and for which units.

* `Execution.IsExpanded` says what an expanded execution on a unit looks like.
* `Planner.plans_are_expanded`: all executions of a plan look like that, forked ones included.
-/

namespace PhasedBuild

/-- The forked work of an execution on a unit has been settled. -/
structure Execution.IsExpanded (units : UnitGraph) (id : String) (e : Execution) : Prop where
  settled : e.forks ≠ .pending
  notForking_iff : e.forks = .notForking ↔ e.step.descriptor.fork = none
  expanded_iff : (∃ forked, e.forks = .expanded forked) ↔ e.step.descriptor.fork ≠ none
  /-- All that is forked says so. -/
  source : ∀ entry ∈ e.forkedUnits, ∀ inner ∈ entry.executions, inner.step.source = .forked
  /-- Only units for which there is something to do are mentioned. -/
  busy : ∀ entry ∈ e.forkedUnits, entry.executions ≠ []
  once : (e.forkedUnits.map (·.unit)).Nodup
  /-- The units stand in build order. -/
  ordered : (e.forkedUnits.map (·.unit)).Pairwise fun a b => units.rank a < units.rank b
  own : e.step.isAggregating = false → ∀ entry ∈ e.forkedUnits, entry.unit = id
  reached : ∀ entry ∈ e.forkedUnits,
    units.LeadsTo id entry.unit ∧ (entry.unit = id ∨ entry.unit ∈ units.ids)

namespace Planner

variable {p : Planner} {units : UnitGraph} {unit : BuildUnit}

/-! ### Forked units and steps -/

/-- Work is forked on units in build order. -/
theorem pairwise_forkTargets (aggregator : Bool) :
    (forkTargets units unit aggregator).Pairwise fun a b =>
      units.rank a.id < units.rank b.id := by
  unfold forkTargets
  split
  next =>
    split
    next => exact List.pairwise_singleton _ _
    next => exact units.pairwise_rank.sublist List.filter_sublist
  next => exact List.pairwise_singleton _ _

/-- Work is forked on units that the forking one leads to. -/
theorem leadsTo_of_mem_forkTargets {target : BuildUnit} {aggregator : Bool}
    (h : target ∈ forkTargets units unit aggregator) : units.LeadsTo unit.id target.id := by
  have hself : target ∈ [unit] → units.LeadsTo unit.id target.id := fun htarget =>
    List.mem_singleton.1 htarget ▸ .refl
  unfold forkTargets at h
  split at h
  next =>
    split at h
    next => exact hself h
    next => exact (UnitGraph.mem_reachable_iff.1 h).2
  next => exact hself h

/-- All steps that are planned for a fork are forked steps. -/
theorem source_forkedSteps (parent : Step) (target : BuildUnit) (fork : ForkSpec) :
    Planning.Ensures (fun _ => True) (p.forkedSteps parent target fork)
      fun steps => ∀ step ∈ steps, step.source = .forked :=
  ensures_forkedSteps (fun _ hsource _ => hsource)
    (fun _ => Planning.Ensures.any.imp fun _ _ _ _ => rfl) (fun _ _ hstep => hstep) fork

/-! ### Expanded executions -/

/-- The steps that are planned for a fork are forked steps. -/
def OffersForked (_ : Step) (_ : BuildUnit) (_ : ForkSpec) (steps : List PlannedStep) : Prop :=
  ∀ step ∈ steps, step.source = .forked

/-- The forked work of an expanded execution has been settled, at every depth. -/
theorem Expands.isExpanded {guard : ForkGuard} {step : Step} {e : Execution}
    (h : Expands OffersForked units guard unit step e) : e.IsExpanded units unit.id := by
  cases h with
  | notForking hfork =>
    have hnone : ∀ entry, entry ∉ (⟨step, .notForking⟩ : Execution).forkedUnits :=
      fun _ => List.not_mem_nil
    constructor
    case settled => exact nofun
    case notForking_iff => exact ⟨fun _ => hfork, fun _ => rfl⟩
    case expanded_iff =>
      refine ⟨?_, fun h => absurd hfork h⟩
      rintro ⟨_, h⟩
      cases h
    case source => exact fun entry hentry => absurd hentry (hnone entry)
    case busy => exact fun entry hentry => absurd hentry (hnone entry)
    case once => exact List.nodup_nil
    case ordered => exact List.Pairwise.nil
    case own => exact fun _ entry hentry => absurd hentry (hnone entry)
    case reached => exact fun entry hentry => absurd hentry (hnone entry)
  | forking hfork hforked =>
    rename_i fork forked
    have hne : step.descriptor.fork ≠ none := by
      rw [hfork]
      exact nofun
    have hordered : (forked.map (·.unit)).Pairwise fun a b => units.rank a < units.rank b :=
      List.Pairwise.sublist hforked.sublist (List.pairwise_map.2 (pairwise_forkTargets _))
    constructor
    case settled => exact nofun
    case notForking_iff => exact ⟨nofun, fun h => absurd h hne⟩
    case expanded_iff => exact ⟨fun _ => hne, fun _ => ⟨forked, rfl⟩⟩
    case source =>
      intro entry hentry inner hinner
      obtain ⟨-, target, -, -, steps, hsteps, hall⟩ := hforked.exists_of_mem hentry
      obtain ⟨planned, hplanned, heq⟩ := hall.exists_of_mem hinner
      rw [heq]
      exact hsteps planned hplanned
    case busy => exact fun entry hentry => (hforked.exists_of_mem hentry).1
    case once => exact UnitGraph.nodup_of_pairwise_rank hordered
    case ordered => exact hordered
    case own =>
      intro hown entry hentry
      obtain ⟨-, target, htarget, hid, -⟩ := hforked.exists_of_mem hentry
      rw [show step.isAggregating = false from hown] at htarget
      rw [hid, List.mem_singleton.1 htarget]
    case reached =>
      intro entry hentry
      obtain ⟨-, target, htarget, hid, -⟩ := hforked.exists_of_mem hentry
      rw [hid]
      refine ⟨leadsTo_of_mem_forkTargets htarget, ?_⟩
      exact (mem_forkTargets_cases htarget).imp (congrArg _) (List.mem_map_of_mem ·)

/-- All executions of a plan are expanded on its unit. -/
theorem expands_plan (p : Planner) (units : UnitGraph) (unit : BuildUnit) (tasks : List Task) :
    Planning.Ensures (fun _ => True) (p.plan units unit tasks) fun plan =>
      plan.unit = unit.id ∧ ∀ e ∈ plan.executions,
        ∃ step, Expands OffersForked units {} unit step e := by
  refine Planning.Ensures.any.bind fun steps _ => ?_
  refine (Planning.Ensures.mapError (.forall_mapM fun step _ => ?_)).bind fun executions h =>
    .pure ⟨rfl, h⟩
  exact ((ensures_expands source_forkedSteps).1 {} unit step.configure).imp fun e he => ⟨_, he⟩

end Planner

/-! ### A survey of units -/

namespace Surveying

/-- All work has one phase. -/
def lifecycle : Lifecycle where
  id := "work"
  phases := [{ name := "prepare" }]

/-- The plugin of the work. -/
def plugin : Coordinate where
  group := "org.acme"
  artifact := "acme-plugin"

/-- A goal that runs alone. -/
def alone (goal : String) : StepDescriptor where
  plugin
  goal

/-- A goal that has the work of a unit done before. -/
def report : StepDescriptor where
  plugin
  goal := "report"
  fork := some (.phase "prepare" none)

/-- A goal that has the work of all units done before. -/
def survey : StepDescriptor where
  plugin
  goal := "survey"
  aggregator := true
  fork := some (.phase "prepare" none)

/-- What plans of the units are made from. -/
def planner : Planner where
  registry := (LifecycleRegistry.register {} lifecycle).1
  catalog.plugins := [("org.acme:acme-plugin", {
    coordinate := plugin
    goals := [report, alone "copy", alone "sign", survey] })]

/-- A use of the plugin, whose goals are the work. -/
def use (goals : List String) : PluginUse where
  coordinate := plugin
  executions := [{ phase := some "prepare", goals }]

def root : BuildUnit where
  id := "root"
  modules := ["app"]
  plugins := [use ["copy", "survey"]]

def app : BuildUnit where
  id := "app"
  plugins := [use ["copy", "sign"]]

/-- A unit that copies and surveys, with a module that copies as well. -/
def units : UnitGraph where
  units := [root, app]
  sorted := [root, app]
  nodup_ids := by decide
  arranged := ⟨rfl, rfl, trivial⟩

/-- A step of the work before its configuration is settled. -/
def work (descriptor : StepDescriptor) : PlannedStep where
  descriptor
  executionId := "default"
  phase := some "prepare"
  source := .forked

/-- The step of a report that is asked for. -/
def asked : PlannedStep where
  descriptor := report
  executionId := "default-cli"
  source := .cli

/-- A step with the work that it forks. -/
def forking (step : PlannedStep) (forked : List (Forked Execution)) : Execution :=
  ⟨step.configure, .expanded forked⟩

/-- A step of the work that forks nothing. -/
def idle (goal : String) : Execution :=
  ⟨(work (alone goal)).configure, .notForking⟩

/-- The survey that the root forks, for which the module only has to sign. -/
def surveyed : Execution :=
  forking (work survey) [⟨"app", [idle "sign"]⟩]

/-- The report on the root. -/
def reported : Execution :=
  forking asked [⟨"root", [idle "copy", surveyed]⟩]

/-- The log of a planner that has read the phase. -/
def read : PlanningLog where
  cache.entries := [("prepare", ⟨.during, "prepare"⟩)]

/-- The guard under which the survey is expanded. -/
def around : ForkGuard :=
  ⟨[survey.key, (alone "copy").key, report.key]⟩

/-- The report, as it is asked for. -/
def task : Task :=
  .goal { plugin := .coordinate plugin, goal := "report" }

/-- On the root the phase has two steps, copying and the survey. -/
theorem forked_root (log : PlanningLog) (h : log = {} ∨ log = read) (step : Step) :
    (planner.forkedSteps step root (.phase "prepare" none)).runWith log =
      (.ok [work (alone "copy"), work survey], read) := by
  rcases h with rfl | rfl <;> cbv

/-- On the module the phase has two steps, copying and signing. -/
theorem forked_app :
    (planner.forkedSteps (work survey).configure app (.phase "prepare" none)).runWith read =
      (.ok [work (alone "copy"), work (alone "sign")], read) := by
  cbv

/-- The survey of the root forks work on the root and on its module. -/
theorem targets_survey : Planner.forkTargets units root true = [root, app] := by
  cbv

/-- On the root the survey has nothing to fork, for both steps are held. -/
theorem survey_root :
    planner.expandSteps units around root [work (alone "copy"), work survey] = pure [] := by
  rw [Planner.expandSteps, dif_neg (by decide +kernel), Planner.expandSteps,
    dif_neg (by decide +kernel), Planner.expandSteps]

/-- On the module the survey has to sign only, for copying is held. -/
theorem survey_app :
    planner.expandSteps units around app [work (alone "copy"), work (alone "sign")] =
      pure [idle "sign"] := by
  rw [Planner.expandSteps, dif_neg (by decide +kernel), Planner.expandSteps,
    dif_pos (by decide +kernel), Planner.expandStep_of_fork_eq_none rfl, Planner.expandSteps]
  rfl

/-- The survey that the root forks leaves the signing on the module. -/
theorem expand_survey :
    (planner.expandStep units around root (work survey).configure).runWith read =
      (.ok surveyed, read) := by
  rw [Planner.expandStep]
  have hguard : around.insert (work survey).configure.key = around := by decide +kernel
  have htargets : Planner.forkTargets units root (work survey).configure.isAggregating =
      [root, app] := targets_survey
  have hfork : (work survey).configure.descriptor.fork = some (.phase "prepare" none) := rfl
  simp only [hfork, hguard, htargets, Planner.expandTargets, Planning.runWith_bind,
    Planning.runWith_pure, forked_root _ (.inr rfl), survey_root, forked_app, survey_app]
  rfl

/-- The report on the root forks the copying and the survey. -/
theorem reported_root :
    (planner.expandSteps units ⟨[report.key]⟩ root [work (alone "copy"), work survey]).runWith
      read = (.ok [idle "copy", surveyed], read) := by
  have hguard : ((ForkGuard.mk [report.key]).insert (work (alone "copy")).key).insert
      (work survey).key = around := by decide +kernel
  rw [Planner.expandSteps, dif_pos (by decide +kernel), Planner.expandStep_of_fork_eq_none rfl,
    Planner.expandSteps, dif_pos (by decide +kernel), hguard, Planner.expandSteps]
  simp only [Planning.runWith_bind, Planning.runWith_pure, expand_survey]
  rfl

/-- The report is expanded into these. -/
theorem expand_report :
    (planner.expand units root { step := asked.configure }).runWith {} = (.ok reported, read) := by
  rw [Planner.expand, Planner.expandStep]
  have htargets : Planner.forkTargets units root asked.configure.isAggregating = [root] := rfl
  have hguard : ({} : ForkGuard).insert asked.configure.key = ⟨[report.key]⟩ := rfl
  have hfork : asked.configure.descriptor.fork = some (.phase "prepare" none) := rfl
  simp only [hfork, hguard, htargets, Planner.expandTargets, Planning.runWith_bind,
    Planning.runWith_pure, forked_root _ (.inl rfl), reported_root]
  rfl

/-- The root is planned for the report with all that it forks. -/
theorem plan_report :
    ((planner.plan units root [task]).runWith {}).1 = .ok ⟨"root", [reported]⟩ := by
  have hsteps : planner.taskSteps root task = pure [asked] := rfl
  simp only [Planner.plan, List.mapM_cons, List.mapM_nil, hsteps, Planning.runWith_bind,
    Planning.runWith_pure, Planning.runWith_mapError, List.flatten_cons, List.flatten_nil,
    List.append_nil, expand_report]
  rfl

end Surveying

/-! ### Plans -/

namespace Planner

/-- At every depth of a plan, a step has its forked work beside it if and only if it forks, the work
is that of units that the step may fork on, in build order and each with something to do, and
nothing is left open. -/
theorem plans_are_expanded (p : Planner) (units : UnitGraph) (unit : BuildUnit) (tasks : List Task)
    (log : PlanningLog) (plan : ExecutionPlan)
    (h : ((p.plan units unit tasks).runWith log).1 = .ok plan) :
    plan.unit = unit.id ∧
    ∀ e ∈ plan.executions, ∀ turns id place, e.Reaches plan.unit turns id place →
      place.IsExpanded units id := by
  obtain ⟨hunit, hexpands⟩ := (expands_plan p units unit tasks log trivial).2 plan h
  refine ⟨hunit, fun e he turns id place hplace => ?_⟩
  obtain ⟨step, hstep⟩ := hexpands e he
  obtain ⟨guard, here, hid, -, hhere, -⟩ := hstep.of_reaches hunit.symm hplace
  rw [← hid]
  exact hhere.isExpanded

/-- So it is with the survey that is forked for a report. -/
theorem survey_is_expanded :
    ((Surveying.planner.plan Surveying.units Surveying.root [Surveying.task]).runWith {}).1 =
        .ok ⟨"root", [Surveying.reported]⟩ ∧
      Surveying.surveyed.IsExpanded Surveying.units "root" := by
  refine ⟨Surveying.plan_report, ?_⟩
  obtain ⟨-, hexpanded⟩ := plans_are_expanded _ _ _ _ _ _ Surveying.plan_report
  exact hexpanded _ (List.mem_singleton_self _)
    [⟨Surveying.asked.configure, "root", [Surveying.idle "copy"]⟩] _ _
    (.fork (List.mem_singleton_self _) (.self _ _))

end Planner

end PhasedBuild
