import PhasedBuild.Plan.Forks
import PhasedBuild.Proofs.Plan.Planning
import PhasedBuild.Proofs.Units.Dependence

/-!
# What the guard keeps out of forked work

The guard of a forked step holds the steps around it, the steps before it in its list, and those
before the steps around it in theirs. What these other steps have forked in turn is not in it.

* `Execution.isGuarded` says that no step has been forked that its guard holds.
* `Planner.forked_work_is_guarded`: so it is with all that is forked for a step, and no list of
  forked executions has a step twice.
* `Planner.forked_twice`: two lists for one unit can have the same step.
-/

namespace PhasedBuild

/-! ### Guarded executions -/

namespace Execution

mutual

/-- Whether no step that is forked for an execution has a key that the guard holds, one that a step
around it has, or one that comes before these in their lists. -/
def isGuarded (guard : ForkGuard) : Execution → Bool
  | ⟨step, .expanded units⟩ => areGuardedUnits (guard.insert step.key) units
  | ⟨_, .pending⟩ => true
  | ⟨_, .notForking⟩ => true

/-- `isGuarded` for all that is forked on units. -/
def areGuardedUnits (guard : ForkGuard) : List (Forked Execution) → Bool
  | [] => true
  | ⟨_, executions⟩ :: rest => areGuarded guard executions && areGuardedUnits guard rest

/-- `isGuarded` for a list of forked executions, each of which is guarded by those before it. -/
def areGuarded (guard : ForkGuard) : List Execution → Bool
  | [] => true
  | execution :: rest =>
    !guard.contains execution.step.key &&
      execution.isGuarded (guard.insert execution.step.key) &&
      areGuarded (guard.insert execution.step.key) rest

end

/-- The identities of all steps that are forked for an execution on a unit. -/
def keysForkedOn (id : String) (e : Execution) : List StepKey :=
  (e.allForked.filter (·.unit == id)).flatMap fun forked => forked.executions.map (·.step.key)

/-- What the guard of a list holds is not in the list, and nothing is in it twice. -/
theorem nodup_of_areGuarded {guard : ForkGuard} {executions : List Execution}
    (h : areGuarded guard executions = true) :
    (executions.map (·.step.key)).Nodup ∧
      ∀ execution ∈ executions, guard.contains execution.step.key = false := by
  induction executions generalizing guard with
  | nil => exact ⟨List.nodup_nil, fun _ h => absurd h List.not_mem_nil⟩
  | cons first rest ih =>
    simp only [areGuarded, Bool.and_eq_true, Bool.not_eq_true'] at h
    obtain ⟨⟨hfirst, -⟩, hrest⟩ := h
    obtain ⟨hnodup, hkept⟩ := ih hrest
    simp only [ForkGuard.contains_insert, Bool.or_eq_false_iff, decide_eq_false_iff_not] at hkept
    refine ⟨List.nodup_cons.2 ⟨fun hmem => ?_, hnodup⟩, fun execution hmem => ?_⟩
    · obtain ⟨other, hother, heq⟩ := List.mem_map.1 hmem
      exact (hkept other hother).1 heq
    · rcases List.mem_cons.1 hmem with rfl | hmem
      · exact hfirst
      · exact (hkept execution hmem).2

mutual

/-- No list of forked executions has a step twice. -/
theorem nodup_of_isGuarded {guard : ForkGuard} : (e : Execution) → e.isGuarded guard = true →
    ∀ forked ∈ e.allForked, (forked.executions.map (·.step.key)).Nodup
  | ⟨_, .expanded units⟩, h => nodup_of_areGuardedUnits units h
  | ⟨_, .pending⟩, _ => fun _ hmem => absurd hmem List.not_mem_nil
  | ⟨_, .notForking⟩, _ => fun _ hmem => absurd hmem List.not_mem_nil

/-- No identity comes twice in a list that is forked, wherever it is forked. -/
theorem nodup_of_areGuardedUnits {guard : ForkGuard} : (units : List (Forked Execution)) →
    areGuardedUnits guard units = true →
      ∀ forked ∈ allForkedUnits units, (forked.executions.map (·.step.key)).Nodup
  | [], _ => fun _ hmem => absurd hmem List.not_mem_nil
  | ⟨unit, executions⟩ :: rest, h => by
    obtain ⟨hexecutions, hrest⟩ := Bool.and_eq_true_iff.1 h
    intro forked hmem
    rcases List.mem_cons.1 hmem with rfl | hmem
    · exact (nodup_of_areGuarded hexecutions).1
    · rcases List.mem_append.1 hmem with hmem | hmem
      · exact nodup_of_areGuardedList executions hexecutions forked hmem
      · exact nodup_of_areGuardedUnits rest hrest forked hmem

/-- So it is with all that the executions of a list fork. -/
theorem nodup_of_areGuardedList {guard : ForkGuard} : (executions : List Execution) →
    areGuarded guard executions = true →
      ∀ forked ∈ allForkedList executions, (forked.executions.map (·.step.key)).Nodup
  | [], _ => fun _ hmem => absurd hmem List.not_mem_nil
  | first :: rest, h => by
    simp only [areGuarded, Bool.and_eq_true] at h
    obtain ⟨⟨-, hfirst⟩, hrest⟩ := h
    intro forked hmem
    rcases List.mem_append.1 hmem with hmem | hmem
    · exact nodup_of_isGuarded first hfirst forked hmem
    · exact nodup_of_areGuardedList rest hrest forked hmem

end

end Execution

namespace Planner

variable (p : Planner) (units : UnitGraph)

/-- The expansion of steps, of units and of lists of steps is guarded. -/
theorem isGuarded_of_yields :
    (∀ guard unit step e, (p.expandStep units guard unit step).Yields e →
      e.step = step ∧ e.isGuarded guard = true) ∧
    (∀ guard parent fork targets forked,
      (p.expandTargets units guard parent fork targets).Yields forked →
        Execution.areGuardedUnits guard forked = true) ∧
    (∀ guard target steps executions, (p.expandSteps units guard target steps).Yields executions →
      Execution.areGuarded guard executions = true) := by
  -- the induction goes the way of the expansion
  refine Planner.expandStep.mutual_induct p units _ _ _ ?_ ?_ ?_ ?_ ?_ ?_ ?_
  · intro guard unit step hfork e h
    rw [expandStep, hfork] at h
    obtain rfl := Planning.yields_pure_iff.1 h
    exact ⟨rfl, rfl⟩
  · intro guard unit step fork hfork ih e h
    rw [expandStep, hfork] at h
    obtain ⟨forked, hforked, h⟩ := h.bind
    obtain rfl := Planning.yields_pure_iff.1 h
    exact ⟨rfl, ih forked hforked⟩
  · intro guard parent fork forked h
    rw [expandTargets] at h
    obtain rfl := Planning.yields_pure_iff.1 h
    rfl
  · intro guard parent fork target rest ihsteps ihrest forked h
    rw [expandTargets] at h
    obtain ⟨steps, -, h⟩ := h.bind
    obtain ⟨executions, hexecutions, h⟩ := h.bind
    obtain ⟨others, hothers, h⟩ := h.bind
    obtain rfl := Planning.yields_pure_iff.1 h
    split
    next => exact ihrest others hothers
    next =>
      simp only [Execution.areGuardedUnits, ihsteps steps executions hexecutions,
        ihrest others hothers, Bool.and_self]
  · intro guard target executions h
    rw [expandSteps] at h
    obtain rfl := Planning.yields_pure_iff.1 h
    rfl
  · intro guard target step rest hmem ihstep ihrest executions h
    rw [expandSteps, dif_pos hmem] at h
    obtain ⟨execution, hexecution, h⟩ := h.bind
    obtain ⟨others, hothers, h⟩ := h.bind
    obtain rfl := Planning.yields_pure_iff.1 h
    obtain ⟨hstep, hguarded⟩ := ihstep execution hexecution
    have hkey : execution.step.key = step.key := congrArg Step.key hstep
    have hnew : guard.contains step.key = false := by
      simpa using (List.mem_filter.1 hmem).2
    simp only [Execution.areGuarded, hkey, hnew, hguarded, ihrest others hothers, Bool.not_false,
      Bool.and_self]
  · intro guard target step rest hmem ihrest executions h
    rw [expandSteps, dif_neg hmem] at h
    exact ihrest executions h

/-! ### Goals that fork goals -/

section goals

variable {p units}

/-- A step without a fork specification forks nothing. -/
theorem expandStep_of_fork_eq_none {step : Step} (h : step.descriptor.fork = none)
    (guard : ForkGuard) (unit : BuildUnit) :
    p.expandStep units guard unit step = pure ⟨step, .notForking⟩ := by
  rw [expandStep, h]

/-- A step is expanded to the work that it forks under the guard with its own identity. -/
theorem expandStep_of_fork_eq_some {guard : ForkGuard} {unit : BuildUnit} {step : Step}
    {fork : ForkSpec} {forked : List (Forked Execution)} (h : step.descriptor.fork = some fork)
    (hforked : p.expandTargets units (guard.insert step.key) step fork
      (forkTargets units unit step.isAggregating) = pure forked) :
    p.expandStep units guard unit step = pure ⟨step, .expanded forked⟩ := by
  rw [expandStep, h]
  simp only [hforked, pure_bind]

/-- A single forked step is expanded if the guard does not hold it. -/
theorem expandSteps_singleton {guard : ForkGuard} {target : BuildUnit} {step : PlannedStep}
    {e : Execution} (hstep : step.key ∈ guard.unplanned p.catalog.keys)
    (he : p.expandStep units (guard.insert step.key) target step.configure = pure e) :
    p.expandSteps units guard target [step] = pure [e] := by
  rw [expandSteps, dif_pos hstep, he, expandSteps]
  rfl

/-- The same work is forked on each unit on which the same step is. -/
theorem expandTargets_of_forall {guard : ForkGuard} {parent : Step} {fork : ForkSpec}
    {step : PlannedStep} {e : BuildUnit → Execution} {targets : List BuildUnit}
    (hforked : ∀ target ∈ targets, p.forkedSteps parent target fork = pure [step])
    (he : ∀ target ∈ targets, p.expandSteps units guard target [step] = pure [e target]) :
    p.expandTargets units guard parent fork targets =
      pure (targets.map fun target => ⟨target.id, [e target]⟩) := by
  induction targets with
  | nil => rw [expandTargets]; rfl
  | cons target rest ih =>
    have hrest := ih (fun t ht => hforked t (List.mem_cons_of_mem _ ht))
      fun t ht => he t (List.mem_cons_of_mem _ ht)
    rw [expandTargets, hforked target List.mem_cons_self, pure_bind, he target List.mem_cons_self,
      pure_bind, hrest]
    rfl

end goals

end Planner

/-! ### A report that forks checks -/

namespace Reporting

/-- A goal for the whole build, which may fork another goal. -/
def descriptor (goal : String) (fork : Option String) : StepDescriptor where
  plugin := { group := "org.acme", artifact := "acme-plugin" }
  goal
  fork := fork.map .goal
  aggregator := true

/-- A report forks a check, and a check forks a compilation. -/
def planner : Planner where
  catalog.plugins := [("org.acme:acme-plugin", {
    coordinate := { group := "org.acme", artifact := "acme-plugin" }
    goals := [descriptor "report" (some "check"), descriptor "check" (some "compile"),
      descriptor "compile" none] })]

/-- A goal as a forked step. -/
def forked (goal : String) (fork : Option String) : PlannedStep where
  descriptor := descriptor goal fork
  executionId := goal
  source := .forked

/-- A compilation, which forks nothing. -/
def compilation : Execution :=
  ⟨(forked "compile" none).configure, .notForking⟩

/-- A check with the compilations that it forks. -/
def check (units : List String) : Execution :=
  ⟨(forked "check" (some "compile")).configure,
    .expanded (units.map fun unit => ⟨unit, [compilation]⟩)⟩

/-- A report with the checks that it forks. -/
def report : Execution :=
  ⟨(forked "report" (some "check")).configure,
    .expanded [⟨"root", [check ["root", "app"]]⟩, ⟨"app", [check ["app"]]⟩]⟩

/-- The report of the root forks work on both units. -/
theorem targets_root : Planner.forkTargets .duo { id := "root", modules := ["app"] } true =
    UnitGraph.duo.units := by
  simp +decide [Planner.forkTargets, UnitGraph.reachable, reach, UnitGraph.duo,
    UnitGraph.neighbours, UnitGraph.ids, UnitGraph.get?, BuildUnit.prerequisites]

/-- The check of the module forks work on the module alone. -/
theorem targets_app : Planner.forkTargets .duo { id := "app" } true = [{ id := "app" }] := by
  simp +decide [Planner.forkTargets, UnitGraph.reachable, reach, UnitGraph.duo,
    UnitGraph.neighbours, UnitGraph.ids, UnitGraph.get?, BuildUnit.prerequisites]

/-- What a report forks on a unit without plugins. -/
theorem forkedSteps_report {target : BuildUnit} (h : target.plugins = []) :
    planner.forkedSteps (forked "report" (some "check")).configure target (.goal "check") =
      pure [forked "check" (some "compile")] := by
  obtain ⟨⟩ := target
  obtain rfl := h
  rfl

/-- What a check forks on a unit without plugins. -/
theorem forkedSteps_check {target : BuildUnit} (h : target.plugins = []) :
    planner.forkedSteps (forked "check" (some "compile")).configure target (.goal "compile") =
      pure [forked "compile" none] := by
  obtain ⟨⟩ := target
  obtain rfl := h
  rfl

/-- The keys that the guard holds when a report has forked a check. -/
def guardOfCheck : ForkGuard :=
  ⟨[⟨"org.acme:acme-plugin", "check"⟩, ⟨"org.acme:acme-plugin", "report"⟩]⟩

/-- A check forks a compilation on each unit that it reaches. -/
theorem expandStep_check {unit : BuildUnit} {targets : List BuildUnit}
    (htargets : Planner.forkTargets .duo unit true = targets)
    (hplugins : ∀ target ∈ targets, target.plugins = []) :
    planner.expandStep .duo guardOfCheck unit (forked "check" (some "compile")).configure =
      pure (check (targets.map (·.id))) := by
  have hcompilation : ∀ target : BuildUnit,
      planner.expandSteps .duo guardOfCheck target [forked "compile" none] = pure [compilation] :=
    fun target => Planner.expandSteps_singleton (by decide +kernel)
      (Planner.expandStep_of_fork_eq_none rfl _ _)
  have hforked := Planner.expandTargets_of_forall
    (fun target ht => forkedSteps_check (hplugins target ht)) fun target _ => hcompilation target
  rw [check, List.map_map]
  refine Planner.expandStep_of_fork_eq_some rfl ?_
  show planner.expandTargets .duo guardOfCheck _ _ (Planner.forkTargets .duo unit true) = _
  rw [htargets]
  exact hforked

/-- A report of the first unit forks a check on both units. -/
theorem expand_report : planner.expand .duo { id := "root", modules := ["app"] }
    ⟨(forked "report" (some "check")).configure, .pending⟩ = pure report := by
  let checkOn (target : BuildUnit) : Execution :=
    check (if target.id = "root" then ["root", "app"] else ["app"])
  have hcheck : ∀ target ∈ UnitGraph.duo.units,
      planner.expandSteps .duo ⟨[⟨"org.acme:acme-plugin", "report"⟩]⟩ target
        [forked "check" (some "compile")] = pure [checkOn target] := by
    intro target htarget
    refine Planner.expandSteps_singleton (by decide +kernel) ?_
    rcases List.mem_pair.1 htarget with rfl | rfl
    · refine expandStep_check targets_root fun target ht => ?_
      rcases List.mem_pair.1 ht with rfl | rfl <;> rfl
    · refine expandStep_check targets_app fun target ht => ?_
      obtain rfl := List.mem_singleton.1 ht
      rfl
  have hforked := Planner.expandTargets_of_forall (fun target ht => forkedSteps_report (by
    rcases List.mem_pair.1 ht with rfl | rfl <;> rfl)) hcheck
  refine Planner.expandStep_of_fork_eq_some rfl ?_
  show planner.expandTargets .duo _ _ _ (Planner.forkTargets .duo _ true) = _
  rw [targets_root]
  exact hforked

end Reporting

/-! ### Forked work -/

namespace Planner

/-- No step is forked that comes up on the way to it, and no list of forked executions has a step
twice. -/
theorem forked_work_is_guarded (p : Planner) (units : UnitGraph) (unit : BuildUnit)
    (execution e : Execution) (log : PlanningLog) (hpending : execution.forks = .pending)
    (h : ((p.expand units unit execution).runWith log).1 = .ok e) :
    e.step = execution.step ∧ e.isGuarded {} = true ∧
      ∀ forked ∈ e.allForked, (forked.executions.map (·.step.key)).Nodup := by
  have hyields : (p.expandStep units {} unit execution.step).Yields e := by
    rw [expand, hpending] at h
    exact ⟨log, h⟩
  obtain ⟨hstep, hguarded⟩ := (p.isGuarded_of_yields units).1 _ _ _ e hyields
  exact ⟨hstep, hguarded, Execution.nodup_of_isGuarded e hguarded⟩

/-- So it is with the checks and compilations of a report. -/
theorem forked_work_of_report :
    ((Reporting.planner.expand .duo { id := "root", modules := ["app"] }
      ⟨Reporting.report.step, .pending⟩).runWith {}).1 = .ok Reporting.report ∧
    Reporting.report.isGuarded {} = true ∧
    ∀ forked ∈ Reporting.report.allForked, (forked.executions.map (·.step.key)).Nodup := by
  have hreport : ((Reporting.planner.expand .duo { id := "root", modules := ["app"] }
      ⟨Reporting.report.step, .pending⟩).runWith {}).1 = .ok Reporting.report :=
    congrArg (fun planning => (Planning.runWith {} planning).1) Reporting.expand_report
  exact ⟨hreport, (forked_work_is_guarded _ _ _ _ _ _ rfl hreport).2⟩

/-- What is forked for an execution on a unit may have a step twice: a report of the first unit
forks a check on both units, and on the second one both checks fork a compilation. -/
theorem forked_twice : ¬ ∀ (p : Planner) (units : UnitGraph) (unit : BuildUnit)
    (execution e : Execution) (log : PlanningLog), execution.forks = .pending →
    ((p.expand units unit execution).runWith log).1 = .ok e →
      ∀ id, (e.keysForkedOn id).Nodup := by
  intro h
  have hreport := congrArg (fun planning => (Planning.runWith {} planning).1)
    Reporting.expand_report
  have hnodup := h Reporting.planner .duo _ _ Reporting.report {} rfl hreport "app"
  revert hnodup
  decide +kernel

end Planner

end PhasedBuild
