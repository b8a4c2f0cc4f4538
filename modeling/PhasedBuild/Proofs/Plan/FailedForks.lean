import PhasedBuild.Proofs.Plan.Faults
import PhasedBuild.Proofs.Plan.Nesting
import PhasedBuild.Proofs.Plan.Suppression

/-!
# Forked work that cannot be planned

The work that a step forks on a unit is looked up: the phase and its lifecycle, the bindings of the
unit and their goals, the overlay and its goals. An expansion goes on until one of these is missing
for one of the forks, however deep that is nested.

* `Planner.CannotFork`: something is missing for a fork of a step on a unit, and what is said of it.
* `Planner.FailsAt`: an expansion comes to such a fork, everything before it being planned.
* `Planner.failed_forks_are_reported`: an expansion fails exactly if it comes to one. The error is
  of resolution whatever is missing, and it names the step and the unit of that fork and no other.
  -/

namespace PhasedBuild

namespace Planner

variable (p : Planner) (units : UnitGraph)

/-- What is looked up for the forked work of a step on a unit ends with an error: the mappings of
the unit with the overlay on them, or the goal. -/
inductive CannotFork (parent : Step) (target : BuildUnit) (log : PlanningLog) (cause : BuildError) :
    ForkSpec → Prop where
  | phase {phase : String} {overlay : Option String}
      (h : ((p.forkedMappings parent target phase overlay).runWith log).1 = .error cause) :
      CannotFork parent target log cause (.phase phase overlay)
  | goal {goal : String} (h : p.catalog.resolve parent.descriptor.plugin goal = .error cause) :
      CannotFork parent target log cause (.goal goal)

/-- A step, a unit that it forks on, and why its work on the unit cannot be planned. -/
structure FailedFork where
  parent : Step
  target : BuildUnit
  cause : BuildError

section places

variable (failed : FailedFork)

mutual

/-- The expansion of a step of a unit under a guard, with a log, comes to a fork that fails. -/
inductive FailsAt : PlanningLog → ForkGuard → BuildUnit → Step → Prop where
  | forking {log : PlanningLog} {guard : ForkGuard} {unit : BuildUnit} {step : Step}
      {fork : ForkSpec} (hfork : step.descriptor.fork = some fork)
      (hfails : FailsOn log (guard.insert step.key) step fork
        (forkTargets units unit step.isAggregating)) :
      FailsAt log guard unit step

/-- `FailsAt` for the work that a step forks on units: the fork itself fails, or one that is nested
in its work on a unit does. -/
inductive FailsOn : PlanningLog → ForkGuard → Step → ForkSpec → List BuildUnit → Prop where
  | here {log : PlanningLog} {guard : ForkGuard} {fork : ForkSpec} {rest : List BuildUnit}
      (hcause : p.CannotFork failed.parent failed.target log failed.cause fork) :
      FailsOn log guard failed.parent fork (failed.target :: rest)
  | nested {log log' : PlanningLog} {guard : ForkGuard} {step : Step} {fork : ForkSpec}
      {target : BuildUnit} {rest : List BuildUnit} {steps : List PlannedStep}
      (hsteps : (p.forkedSteps step target fork).runWith log = (.ok steps, log'))
      (hfails : FailsAmong log' guard target steps) :
      FailsOn log guard step fork (target :: rest)
  | later {log log' log'' : PlanningLog} {guard : ForkGuard} {step : Step} {fork : ForkSpec}
      {target : BuildUnit} {rest : List BuildUnit} {steps : List PlannedStep}
      {executions : List Execution}
      (hsteps : (p.forkedSteps step target fork).runWith log = (.ok steps, log'))
      (hdone : (p.expandSteps units guard target steps).runWith log' = (.ok executions, log''))
      (hfails : FailsOn log'' guard step fork rest) :
      FailsOn log guard step fork (target :: rest)

/-- `FailsAt` for forked steps on a unit, of which those that the guard holds are left out. -/
inductive FailsAmong : PlanningLog → ForkGuard → BuildUnit → List PlannedStep → Prop where
  | held {log : PlanningLog} {guard : ForkGuard} {target : BuildUnit} {step : PlannedStep}
      {rest : List PlannedStep} (hheld : guard.contains step.key = true)
      (hfails : FailsAmong log guard target rest) : FailsAmong log guard target (step :: rest)
  | here {log : PlanningLog} {guard : ForkGuard} {target : BuildUnit} {step : PlannedStep}
      {rest : List PlannedStep} (hnew : guard.contains step.key = false)
      (hfails : FailsAt log (guard.insert step.key) target step.configure) :
      FailsAmong log guard target (step :: rest)
  | later {log log' : PlanningLog} {guard : ForkGuard} {target : BuildUnit} {step : PlannedStep}
      {rest : List PlannedStep} {e : Execution} (hnew : guard.contains step.key = false)
      (hdone : (p.expandStep units (guard.insert step.key) target step.configure).runWith log =
        (.ok e, log'))
      (hfails : FailsAmong log' (guard.insert step.key) target rest) :
      FailsAmong log guard target (step :: rest)

end

end places

/-- The error of a fork that fails. -/
def FailedFork.error (failed : FailedFork) : BuildError :=
  notRunnable failed.parent failed.target failed.cause

variable {p units}

/-- What is forked on a unit cannot be told exactly if something that is looked up for it ends with
an error. -/
theorem forkedSteps_fails_iff {parent : Step} {target : BuildUnit} {fork : ForkSpec}
    {log : PlanningLog} {e : BuildError} :
    ((p.forkedSteps parent target fork).runWith log).1 = .error e ↔
      ∃ cause, p.CannotFork parent target log cause fork ∧ e = notRunnable parent target cause := by
  cases fork with
  | phase phase overlay =>
    have hfails (cause : BuildError) :
        ((Mappings.steps <$> p.forkedMappings parent target phase overlay).runWith log).1 =
            .error cause ↔ p.CannotFork parent target log cause (.phase phase overlay) := by
      rw [map_eq_pure_bind, Planning.bind_fails_iff]
      constructor
      · rintro (h | ⟨_, _, -, h⟩)
        · exact .phase h
        · cases h
      · intro h
        cases h with
        | phase h => exact .inl h
    rw [forkedSteps_phase, Planning.runWith_mapError]
    simp only [← hfails]
    cases ((Mappings.steps <$> p.forkedMappings parent target phase overlay).runWith log).1 <;>
      simp [Except.mapError, eq_comm]
  | goal goal =>
    constructor
    · intro h
      unfold forkedSteps at h
      dsimp only at h
      split at h
      next cause hcause => exact ⟨cause, .goal hcause, (Except.error.inj h).symm⟩
      next => cases h
    · rintro ⟨cause, hcause, rfl⟩
      cases hcause with
      | goal h =>
        unfold forkedSteps
        dsimp only
        rw [h]
        rfl

/-! ### One step of an expansion -/

section steps

variable {guard : ForkGuard} {log : PlanningLog} {e : BuildError}

/-- The expansion of a forking step fails exactly if that of its forked work does. -/
theorem expandStep_fails_iff {unit : BuildUnit} {step : Step} {fork : ForkSpec}
    (hfork : step.descriptor.fork = some fork) :
    ((p.expandStep units guard unit step).runWith log).1 = .error e ↔
      ((p.expandTargets units (guard.insert step.key) step fork
        (forkTargets units unit step.isAggregating)).runWith log).1 = .error e := by
  rw [expandStep, hfork]
  dsimp only
  rw [Planning.bind_fails_iff]
  refine or_iff_left ?_
  rintro ⟨_, _, -, h⟩
  cases h

/-- The forked work on units fails where the steps of the first unit are looked up, in their
expansion, or on a later unit. -/
theorem expandTargets_cons_fails_iff {parent : Step} {fork : ForkSpec} {target : BuildUnit}
    {rest : List BuildUnit} :
    ((p.expandTargets units guard parent fork (target :: rest)).runWith log).1 = .error e ↔
      ((p.forkedSteps parent target fork).runWith log).1 = .error e ∨
      ∃ steps log', (p.forkedSteps parent target fork).runWith log = (.ok steps, log') ∧
        (((p.expandSteps units guard target steps).runWith log').1 = .error e ∨
        ∃ executions log'',
          (p.expandSteps units guard target steps).runWith log' = (.ok executions, log'') ∧
          ((p.expandTargets units guard parent fork rest).runWith log'').1 = .error e) := by
  rw [expandTargets]
  simp only [Planning.bind_fails_iff, Planning.runWith_pure, reduceCtorEq, and_false, exists_false,
    or_false]

/-- The expansion of forked steps fails in that of the first step or in that of a later one. -/
theorem expandSteps_cons_fails_iff {target : BuildUnit} {step : PlannedStep}
    {rest : List PlannedStep} (hnew : step.key ∈ guard.unplanned p.catalog.keys) :
    ((p.expandSteps units guard target (step :: rest)).runWith log).1 = .error e ↔
      ((p.expandStep units (guard.insert step.key) target step.configure).runWith log).1 =
        .error e ∨
      ∃ execution log',
        (p.expandStep units (guard.insert step.key) target step.configure).runWith log =
          (.ok execution, log') ∧
        ((p.expandSteps units (guard.insert step.key) target rest).runWith log').1 = .error e := by
  rw [expandSteps, dif_pos hnew]
  simp only [Planning.bind_fails_iff, Planning.runWith_pure, reduceCtorEq, and_false, exists_false,
    or_false]

end steps

/-! ### Whole expansions -/

variable (p units) in
/-- Where an expansion fails, it has come to a fork that fails, and the error is that of this fork:
what is around the fork adds nothing to it. -/
theorem expansions_fail_iff :
    (∀ guard unit step log e, ((p.expandStep units guard unit step).runWith log).1 = .error e ↔
      ∃ failed, p.FailsAt units failed log guard unit step ∧ e = failed.error) ∧
    (∀ guard parent fork targets log e,
      ((p.expandTargets units guard parent fork targets).runWith log).1 = .error e ↔
        ∃ failed, p.FailsOn units failed log guard parent fork targets ∧ e = failed.error) ∧
    (∀ guard target steps, p.Offers steps → ∀ log e,
      ((p.expandSteps units guard target steps).runWith log).1 = .error e ↔
        ∃ failed, p.FailsAmong units failed log guard target steps ∧ e = failed.error) := by
  -- the induction goes the way of the expansion
  refine Planner.expandStep.mutual_induct p units _ _ _ ?_ ?_ ?_ ?_ ?_ ?_ ?_
  · intro guard unit step hfork log e
    rw [expandStep, hfork]
    constructor
    · intro h
      cases h
    · rintro ⟨failed, ⟨hsome, -⟩, -⟩
      rw [hfork] at hsome
      cases hsome
  · intro guard unit step fork hfork ih log e
    rw [expandStep_fails_iff hfork, ih]
    constructor
    · rintro ⟨failed, hfails, rfl⟩
      exact ⟨failed, .forking hfork hfails, rfl⟩
    · rintro ⟨failed, ⟨hsome, hfails⟩, rfl⟩
      obtain rfl := Option.some.inj (hfork.symm.trans hsome)
      exact ⟨failed, hfails, rfl⟩
  · intro guard parent fork log e
    rw [expandTargets]
    constructor
    · intro h
      cases h
    · rintro ⟨failed, hfails, -⟩
      cases hfails
  · intro guard parent fork target rest ihsteps ihrest log e
    have hoffers : ∀ {log steps log'},
        (p.forkedSteps parent target fork).runWith log = (.ok steps, log') → p.Offers steps :=
      fun hsteps => (offers_forkedSteps parent target fork _ trivial).2 _ (congrArg Prod.fst hsteps)
    rw [expandTargets_cons_fails_iff, forkedSteps_fails_iff]
    constructor
    · rintro (⟨cause, hcause, rfl⟩ | ⟨steps, log', hsteps, h | ⟨executions, log'', hdone, h⟩⟩)
      · exact ⟨⟨parent, target, cause⟩, .here hcause, rfl⟩
      · obtain ⟨failed, hfails, rfl⟩ := (ihsteps steps (hoffers hsteps) log' e).1 h
        exact ⟨failed, .nested hsteps hfails, rfl⟩
      · obtain ⟨failed, hfails, rfl⟩ := (ihrest log'' e).1 h
        exact ⟨failed, .later hsteps hdone hfails, rfl⟩
    · rintro ⟨failed, hfails, rfl⟩
      cases hfails with
      | here hcause => exact .inl ⟨_, hcause, rfl⟩
      | nested hsteps hfails =>
        have hnested := (ihsteps _ (hoffers hsteps) _ _).2 ⟨failed, hfails, rfl⟩
        exact .inr ⟨_, _, hsteps, .inl hnested⟩
      | later hsteps hdone hfails =>
        have hlater := (ihrest _ _).2 ⟨failed, hfails, rfl⟩
        exact .inr ⟨_, _, hsteps, .inr ⟨_, _, hdone, hlater⟩⟩
  · intro guard target _ log e
    rw [expandSteps]
    constructor
    · intro h
      cases h
    · rintro ⟨failed, hfails, -⟩
      cases hfails
  · intro guard target step rest hmem ihstep ihrest hcatalog log e
    have hnew : guard.contains step.key = false := (mem_unplanned_iff.1 hmem).2
    obtain ⟨-, hrest⟩ := List.forall_mem_cons.1 hcatalog
    rw [expandSteps_cons_fails_iff hmem]
    constructor
    · rintro (h | ⟨execution, log', hdone, h⟩)
      · obtain ⟨failed, hfails, rfl⟩ := (ihstep log e).1 h
        exact ⟨failed, .here hnew hfails, rfl⟩
      · obtain ⟨failed, hfails, rfl⟩ := (ihrest hrest log' e).1 h
        exact ⟨failed, .later hnew hdone hfails, rfl⟩
    · rintro ⟨failed, hfails, rfl⟩
      cases hfails with
      | held hheld =>
        rw [hnew] at hheld
        cases hheld
      | here _ hfails => exact .inl ((ihstep _ _).2 ⟨failed, hfails, rfl⟩)
      | later _ hdone hfails =>
        exact .inr ⟨_, _, hdone, (ihrest hrest _ _).2 ⟨failed, hfails, rfl⟩⟩
  · intro guard target step rest hmem ihrest hcatalog log e
    obtain ⟨hstep, hrest⟩ := List.forall_mem_cons.1 hcatalog
    -- the step is of the catalog, so only the guard can keep it out
    have hheld : guard.contains step.key = true := by
      simpa [ForkGuard.unplanned, hstep] using hmem
    rw [expandSteps, dif_neg hmem, ihrest hrest]
    constructor
    · rintro ⟨failed, hfails, rfl⟩
      exact ⟨failed, .held hheld hfails, rfl⟩
    · rintro ⟨failed, hfails, rfl⟩
      cases hfails with
      | held _ hfails => exact ⟨failed, hfails, rfl⟩
      | here hnew | later hnew =>
        rw [hheld] at hnew
        cases hnew

end Planner

/-! ### Reports -/

/-- An error says that the work which a step forks on a unit cannot be planned. Its source is what
was said of the cause. -/
structure BuildError.Reports (e : BuildError) (failed : Planner.FailedFork) : Prop where
  kind_eq : e.kind = .resolution
  message_eq : e.message =
    "Step " ++ failed.parent.display ++ " is not runnable: " ++ failed.cause.message
  unit_eq : e.context.unit = some failed.target.id
  step_eq : e.context.step = some failed.parent.display
  causes_eq : e.causes = .build failed.cause.fault failed.cause.context :: failed.cause.causes

/-- The fault of a step that is not runnable has one of the reasons for that in it. -/
theorem Fault.HindersPlan.of_notRunnable {step : String} {cause : Fault}
    (h : (Fault.notRunnable step cause).HindersPlan) : cause.HindersFork := by
  cases h with
  | phase h => rcases h with hphase | hgoal <;> contradiction
  | fork _ h => exact h

/-! ### A phase that no lifecycle has -/

namespace Surveying

/-- A report for which a phase is to be reached that does not exist. -/
def lost : Step :=
  { asked.configure with descriptor := { report with fork := some (.phase "publish" none) } }

/-- What is said of the phase. -/
def notAPhase : BuildError :=
  ((Fault.unknownPhase "publish" ["prepare"] : BuildError).withPhase "publish").withUnit "app"

/-- The expansion of the report comes to a fork that fails on its own unit. -/
theorem failsAt_lost :
    planner.FailsAt units ⟨lost, app, notAPhase⟩ {} {} app lost := by
  have hcause : ((planner.forkedMappings lost app "publish" none).runWith {}).1 =
      .error notAPhase := by
    cbv
  have htargets : Planner.forkTargets units app lost.isAggregating = [app] := rfl
  refine .forking rfl ?_
  rw [htargets]
  exact .here (.phase hcause)

end Surveying

namespace Planner

/-- The error of a fork that fails says so. -/
theorem FailedFork.reports_error (failed : FailedFork) : failed.error.Reports failed :=
  ⟨rfl, rfl, rfl, rfl, rfl⟩

/-- The expansion of an execution fails exactly if it comes to a fork that fails, at any depth of
the forked work and for whatever reason. The error is then of resolution and not of configuration,
it names the unit of that fork and the step that forks it, and its source is the error that made the
fork fail, which is about a phase, a packaging, a plugin, a goal, an overlay or a binding in it. -/
theorem failed_forks_are_reported (p : Planner) (units : UnitGraph) (unit : BuildUnit)
    (execution : Execution) (log : PlanningLog) :
    (∀ failed, execution.forks = .pending → p.FailsAt units failed log {} unit execution.step →
      ∃ e, ((p.expand units unit execution).runWith log).1 = .error e ∧ e.Reports failed) ∧
    ∀ e, ((p.expand units unit execution).runWith log).1 = .error e →
      e.isConfiguration = false ∧ execution.forks = .pending ∧
      ∃ failed, p.FailsAt units failed log {} unit execution.step ∧ e.Reports failed ∧
        failed.cause.fault.HindersFork := by
  have hexpand := expansions_fail_iff p units
  obtain ⟨step, forks⟩ := execution
  constructor
  · rintro failed rfl hfails
    exact ⟨failed.error, (hexpand.1 {} unit step log _).2 ⟨failed, hfails, rfl⟩,
      failed.reports_error⟩
  · intro e h
    cases forks with
    | notForking => cases h
    | expanded _ => cases h
    | pending =>
      obtain ⟨failed, hfails, rfl⟩ := (hexpand.1 {} unit step log e).1 h
      have hreason := (p.failsFor_expansions units).1 {} unit step log _ h
      exact ⟨rfl, rfl, failed, hfails, failed.reports_error, hreason.of_notRunnable⟩

/-- So it is with a phase that does not exist, which is a matter of configuration where it is asked
for. -/
theorem lost_report_is_reported : Surveying.notAPhase.isConfiguration = true ∧
    Surveying.planner.FailsAt Surveying.units ⟨Surveying.lost, Surveying.app, Surveying.notAPhase⟩
      {} {} Surveying.app Surveying.lost ∧
    ∃ e, ((Surveying.planner.expand Surveying.units Surveying.app
        { step := Surveying.lost }).runWith {}).1 = .error e ∧
      e.Reports ⟨Surveying.lost, Surveying.app, Surveying.notAPhase⟩ :=
  ⟨rfl, Surveying.failsAt_lost, (failed_forks_are_reported Surveying.planner Surveying.units
    Surveying.app { step := Surveying.lost } {}).1 _ rfl Surveying.failsAt_lost⟩

end Planner

end PhasedBuild
