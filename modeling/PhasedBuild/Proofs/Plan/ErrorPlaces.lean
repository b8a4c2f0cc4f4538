import PhasedBuild.Plan.Tasks
import PhasedBuild.Proofs.Lifecycle.Standing
import PhasedBuild.Proofs.Plan.Errors
import PhasedBuild.Proofs.Plan.Shape

/-!
# Which errors name a unit

An error of planning goes up through the planner, which adds the unit to it in some places: where a
lifecycle is looked up for a phase, where the bindings of a packaging are read, where a goal that is
bound to a phase is looked up, and where forked work is planned. Elsewhere it adds none.

* `Planner.FailsUnnamed`: the tasks of a unit that fail without a word about the unit.
* `Planner.FailsToFork`: planning fails on a unit that work is forked on.
* `Planner.error_names_unit_iff`: which errors of a plan name a unit, and which unit they name.
-/

namespace PhasedBuild

/-! ### Errors without a unit -/

namespace BuildError

/-- Nothing is said about the unit of an error. -/
def NamesNoUnit (e : BuildError) : Prop :=
  e.context.unit = none

/-- An error that does not name a unit names the one that is attached to it. -/
theorem NamesNoUnit.unit_withUnit {e : BuildError} (h : e.NamesNoUnit) (unit : String) :
    (e.withUnit unit).context.unit = some unit :=
  congrArg (Option.or · (some unit)) h

/-- The unit that an error names stays. -/
theorem withUnit_eq_self {e : BuildError} {unit : String} (h : e.context.unit = some unit)
    (other : String) : e.withUnit other = e := by
  obtain ⟨fault, ⟨_, step, phase⟩, causes⟩ := e
  obtain rfl : _ = some unit := h
  rfl

end BuildError

/-- The catalog does not name units when it does not have a goal. -/
theorem Catalog.failsWith_resolve (c : Catalog) (coordinate : Coordinate) (goal : String) :
    FailsWith BuildError.NamesNoUnit (c.resolve coordinate goal) := by
  unfold resolve plugin
  refine .bind ?_ fun plugin => ?_
  · split
    next => exact .ok _
    next => exact .error rfl
  · split
    next => exact .ok _
    next => exact .error rfl

/-- The registry does not name units when a phase cannot be requested. -/
theorem LifecycleRegistry.failsWith_lifecycleOf (r : LifecycleRegistry) (phase : String) :
    FailsWith BuildError.NamesNoUnit (r.lifecycleOf phase) := by
  unfold lifecycleOf
  split
  next => exact .ok _
  next => exact .error rfl

/-- The packagings do not name units when one of them is not known. -/
theorem Packagings.failsWith_bindings (p : Packagings) (packaging : String) :
    FailsWith BuildError.NamesNoUnit (p.bindings packaging) := by
  unfold bindings
  split
  next => exact .error rfl
  next => exact .ok _

namespace Planner

variable (p : Planner)

/-- A declared goal that has no binding fails without a word about the unit. -/
theorem failsWith_declaredBinding? (use : PluginUse) (execution : ExecutionDecl) (goal : String) :
    FailsWith BuildError.NamesNoUnit (p.declaredBinding? use execution goal) := by
  unfold declaredBinding?
  split
  next => exact .ok _
  next => exact (p.catalog.failsWith_resolve use.coordinate goal).map.bind fun _ => .ok _

/-- The declared goals of a unit fail without a word about it. -/
theorem failsWith_declaredBindings (unit : BuildUnit) :
    FailsWith BuildError.NamesNoUnit (p.declaredBindings unit) :=
  .bind (.mapM fun entry _ => p.failsWith_declaredBinding? entry.1 entry.2.1 entry.2.2)
    fun _ => .ok _

/-- A goal that is asked for and cannot be found fails without a word about the unit. -/
theorem failsWith_goalStep (unit : BuildUnit) (goal : GoalSpec) :
    FailsWith BuildError.NamesNoUnit (p.goalStep unit goal) := by
  unfold goalStep GoalSpec.coordinate
  refine .bind ?_ fun named => .bind (p.catalog.failsWith_resolve _ _) fun _ => .ok _
  split
  next name _ =>
    unfold Catalog.resolveShorthand
    split
    next => exact .ok _
    next => exact .error rfl
  next => exact .ok _

/-! ### Tasks -/

/-- A task of a unit fails with an error that does not name the unit: the goal of the task cannot be
found, the lifecycle of the requested phase does not have the requested point, or the unit declares
an execution without a phase whose goal cannot be found. -/
inductive FailsUnnamed (unit : BuildUnit) : Task → BuildError → Prop where
  | goal {goal : GoalSpec} {e : BuildError} (h : p.goalStep unit goal = .error e) :
    FailsUnnamed unit (.goal goal) e
  | outside {raw : String} {lifecycle : Lifecycle} (hmem : lifecycle ∈ p.registry.lifecycles) :
    FailsUnnamed unit (.phase raw)
      ((Fault.phaseOutsideLifecycle raw lifecycle.id : BuildError).withPhase raw)
  | declared {raw : String} {e : BuildError} (h : p.declaredBindings unit = .error e) :
    FailsUnnamed unit (.phase raw) e

variable {p}

/-- A task that fails without a word about its unit does not name any. -/
theorem FailsUnnamed.namesNoUnit {unit : BuildUnit} {task : Task} {e : BuildError}
    (h : p.FailsUnnamed unit task e) : e.NamesNoUnit := by
  cases h with
  | goal h => exact p.failsWith_goalStep unit _ _ h
  | outside => rfl
  | declared h => exact p.failsWith_declaredBindings unit _ h

/-- An error of a task of a unit names the unit, or the task fails without a word about it. -/
def FailsOnTask (p : Planner) (unit : BuildUnit) (task : Task) (e : BuildError) : Prop :=
  e.context.unit = some unit.id ∨ p.FailsUnnamed unit task e

/-- The bindings of a unit fail with an error that names the unit, or because of a goal that it
declares. -/
theorem failsWith_bindings (unit : BuildUnit) (lifecycle : Lifecycle) (raw : String) :
    Planning.FailsWith (p.FailsOnTask unit (.phase raw)) (p.bindings unit lifecycle) := by
  refine .bind ?_ fun fromLifecycle => .bind ?_ fun fromPackaging => .bind ?_ fun _ => .pure _
  · exact (Planning.FailsWith.warn _).bind fun _ => .pure _
  · unfold packagingBindings
    split
    case isFalse => exact .pure _
    split
    next e heq =>
      have hnone := p.packagings.failsWith_bindings unit.packaging e heq
      exact .throw (.inl (hnone.unit_withUnit unit.id))
    next => exact (Planning.FailsWith.warn _).bind fun _ => .pure _
  · exact fun _ e he => .inr (.declared he)

/-- The mappings of a unit fail with an error that names the unit, or in one of the ways that leave
it out. -/
theorem failsWith_mappings (hsound : p.registry.Sound) (unit : BuildUnit) (raw : String) :
    Planning.FailsWith (p.FailsOnTask unit (.phase raw)) (p.mappings unit raw) := by
  have hresolve : ∀ text,
      Planning.FailsWith (p.FailsOnTask unit (.phase raw)) (p.resolveRef text) :=
    fun _ _ => .ok _
  refine (hresolve raw).bind fun requested => ?_
  dsimp only
  split
  case h_2 e heq =>
    have hnone := p.registry.failsWith_lifecycleOf requested.phase e heq
    exact .throw_bind (.inl (hnone.unit_withUnit unit.id))
  next lifecycle hlifecycle =>
  rw [pure_bind]
  obtain ⟨i, -, hi⟩ := LifecycleRegistry.lifecycleOf_eq_ok_iff.1 hlifecycle
  have hmem := List.mem_of_getElem? hi
  split
  case h_2 e heq =>
    obtain ⟨order, -, horder⟩ := hsound.order_eq hmem
    rw [horder] at heq
    cases heq
  rw [pure_bind]
  split
  case h_2 => exact .throw_bind (.inr (.outside hmem))
  rw [pure_bind]
  refine (failsWith_bindings unit lifecycle raw).bind fun bindings => ?_
  refine .bind (.mapM fun binding _ => ?_) fun placed => .bind (.mapM fun item _ => ?_) fun steps =>
    .pure _
  · unfold place?
    split
    next => exact .pure _
    next phase _ => exact (hresolve phase).bind fun _ => .pure _
  · split
    next => exact .pure _
    next e heq =>
      have hstep : FailsWith BuildError.NamesNoUnit (p.stepOf .lifecycle item.2) :=
        (p.catalog.failsWith_resolve _ _).bind fun _ => .ok _
      exact .throw (.inl ((hstep e heq).unit_withUnit unit.id))

/-- A task fails with an error that names the unit, or in one of the ways that leave it out. -/
theorem failsWith_taskSteps (hsound : p.registry.Sound) (unit : BuildUnit) (task : Task) :
    Planning.FailsWith (p.FailsOnTask unit task) (p.taskSteps unit task) := by
  unfold taskSteps
  split
  next goal =>
    split
    next => exact .pure _
    next e heq => exact .throw (.inr (.goal heq))
  next phase => exact (failsWith_mappings hsound unit phase).bind fun _ => .pure _

/-! ### Forked work -/

/-- Planning the work that a step forks on a unit fails with an error that names this unit. -/
def FailsToFork (p : Planner) (target : BuildUnit) (e : BuildError) : Prop :=
  e.context.unit = some target.id ∧
    ∃ parent fork log, ((p.forkedSteps parent target fork).runWith log).1 = .error e

/-- The work that a step forks on a unit fails with an error that names that unit. -/
theorem failsWith_forkedSteps (p : Planner) (parent : Step) (target : BuildUnit) (fork : ForkSpec) :
    Planning.FailsWith (p.FailsToFork target) (p.forkedSteps parent target fork) := by
  have hnames : Planning.FailsWith (fun e => e.context.unit = some target.id)
      (p.forkedSteps parent target fork) := by
    unfold forkedSteps
    split
    next => exact Planning.FailsWith.mapError (fun _ _ _ => trivial) fun _ _ => rfl
    next =>
      split
      next => exact .throw rfl
      next => exact .pure _
  exact fun log e he => ⟨hnames log e he, parent, fork, log, he⟩

/-- Work of a unit may be forked on another one, at any depth. -/
def MayForkOn (units : UnitGraph) (unit target : BuildUnit) : Prop :=
  (target = unit ∨ target ∈ units.units) ∧ units.LeadsTo unit.id target.id

variable {units : UnitGraph} {root unit target : BuildUnit}

/-- Work may be forked on the units that forked work may be forked on. -/
theorem MayForkOn.of_mem_forkTargets {aggregator : Bool} (h : MayForkOn units root unit)
    (htarget : target ∈ forkTargets units unit aggregator) : MayForkOn units root target := by
  refine ⟨?_, h.2.trans (leadsTo_of_mem_forkTargets htarget)⟩
  rcases mem_forkTargets_cases htarget with rfl | hmem
  · exact h.1
  · exact .inr hmem

/-- The forked work of a unit fails on one of the units that work may be forked on. -/
def FailsBelow (p : Planner) (units : UnitGraph) (unit : BuildUnit) (e : BuildError) : Prop :=
  ∃ target, MayForkOn units unit target ∧ p.FailsToFork target e

/-- The forked work of a unit, at any depth, fails with an error that names the unit that it was
forked on. -/
theorem failsWith_expansions (p : Planner) (units : UnitGraph) :
    (∀ guard unit step root, MayForkOn units root unit →
      Planning.FailsWith (p.FailsBelow units root) (p.expandStep units guard unit step)) ∧
    (∀ guard parent fork targets root, (∀ target ∈ targets, MayForkOn units root target) →
      Planning.FailsWith (p.FailsBelow units root)
        (p.expandTargets units guard parent fork targets)) ∧
    ∀ guard target steps root, MayForkOn units root target →
      Planning.FailsWith (p.FailsBelow units root) (p.expandSteps units guard target steps) := by
  -- the induction goes the way of the expansion
  refine Planner.expandStep.mutual_induct p units _ _ _ ?_ ?_ ?_ ?_ ?_ ?_ ?_
  · intro guard unit step hfork root _
    rw [expandStep, hfork]
    exact .pure _
  · intro guard unit step fork hfork ih root hunit
    rw [expandStep, hfork]
    refine (ih root fun target htarget => ?_).bind fun _ => .pure _
    exact hunit.of_mem_forkTargets htarget
  · intro guard parent fork root _
    rw [expandTargets]
    exact .pure _
  · intro guard parent fork target rest ihsteps ihrest root htargets
    obtain ⟨htarget, hrest⟩ := List.forall_mem_cons.1 htargets
    rw [expandTargets]
    have hforked := (p.failsWith_forkedSteps parent target fork).imp
      fun _ he => (⟨target, htarget, he⟩ : p.FailsBelow units root _)
    refine hforked.bind fun steps => ?_
    exact (ihsteps steps root htarget).bind fun _ => (ihrest root hrest).bind fun _ => .pure _
  · intro guard target root _
    rw [expandSteps]
    exact .pure _
  · intro guard target step rest hmem ihstep ihrest root htarget
    rw [expandSteps, dif_pos hmem]
    exact (ihstep root htarget).bind fun _ => (ihrest root htarget).bind fun _ => .pure _
  · intro guard target step rest hmem ihrest root htarget
    rw [expandSteps, dif_neg hmem]
    exact ihrest root htarget

/-! ### Plans -/

/-- An error of a plan is one of its tasks or of its forked work. -/
theorem failsWith_plan (hsound : p.registry.Sound) (units : UnitGraph) (unit : BuildUnit)
    (tasks : List Task) :
    Planning.FailsWith
      (fun e => (∃ task ∈ tasks, p.FailsOnTask unit task e) ∨ p.FailsBelow units unit e)
      (p.plan units unit tasks) := by
  refine .bind (.mapM fun task htask => ?_) fun steps => .bind ?_ fun _ => .pure _
  · exact (failsWith_taskSteps hsound unit task).imp fun e he => .inl ⟨task, htask, he⟩
  · have hexpand : ∀ step : PlannedStep, Planning.FailsWith (p.FailsBelow units unit)
        (p.expand units unit { step := step.configure }) := fun step =>
      (p.failsWith_expansions units).1 {} unit step.configure unit ⟨.inl rfl, .refl⟩
    refine .mapError (.mapM fun step _ => hexpand step) fun e he => .inr ?_
    obtain ⟨target, hfork, hunit, parent, fork, log, herror⟩ := he
    rw [BuildError.withUnit_eq_self hunit]
    exact ⟨target, hfork, hunit, parent, fork, log, herror⟩

end Planner

/-! ### A goal that cannot be found -/

namespace Surveying

/-- A unit with an execution that has no phase and whose goal is not that of any plugin. -/
def stray : BuildUnit where
  id := "app"
  plugins := [{ coordinate := plugin, executions := [{ goals := ["missing"] }] }]

/-- The error of the goal, wherever it is looked up. -/
def notFound : BuildError where
  fault := .unknownGoal "missing" plugin ["report", "copy", "sign", "survey"]

/-- The unit is not planned, and the error in the place of the plan does not name it. -/
theorem plan_stray :
    ((planner.plan units stray [.phase "prepare"]).runWith {}).1 = .error notFound := by
  cbv

end Surveying

namespace Planner

/-- An error of the plan of a unit names no unit exactly if it is that of a task that fails without
a word about the unit: one whose goal cannot be found, whose phase is no point of its lifecycle, or
that finds a declared execution without a phase whose goal cannot be found. Every other error names
the unit or, if it comes from forked work, the unit that the work could not be planned for. -/
theorem error_names_unit_iff (attempts : List Lifecycle) (p : Planner)
    (hregistry : p.registry = LifecycleRegistry.after {} attempts) (units : UnitGraph)
    (unit : BuildUnit) (tasks : List Task) (log : PlanningLog) (e : BuildError)
    (h : ((p.plan units unit tasks).runWith log).1 = .error e) :
    (e.context.unit = none ↔ ∃ task ∈ tasks, p.FailsUnnamed unit task e) ∧
    ∀ id, e.context.unit = some id → id = unit.id ∨
      ∃ target ∈ units.units, target.id = id ∧ units.LeadsTo unit.id id ∧
        ∃ parent fork log', ((p.forkedSteps parent target fork).runWith log').1 = .error e := by
  have hsound : p.registry.Sound := hregistry ▸ LifecycleRegistry.sound_after attempts
  rcases failsWith_plan hsound units unit tasks log e h with
    ⟨task, htask, hown | hunnamed⟩ | ⟨target, ⟨hmem, hleads⟩, hunit, hfork⟩
  · refine ⟨⟨fun hnone => ?_, fun ⟨_, _, hunnamed⟩ => hunnamed.namesNoUnit⟩, fun id hid => ?_⟩
    · rw [hown] at hnone
      cases hnone
    · exact .inl (Option.some.inj (hid.symm.trans hown))
  · have hnone : e.context.unit = none := hunnamed.namesNoUnit
    refine ⟨iff_of_true hnone ⟨task, htask, hunnamed⟩, fun id hid => ?_⟩
    rw [hnone] at hid
    cases hid
  · refine ⟨⟨fun hnone => ?_, fun ⟨_, _, hunnamed⟩ => hunnamed.namesNoUnit⟩, fun id hid => ?_⟩
    · rw [hunit] at hnone
      cases hnone
    · obtain rfl := Option.some.inj (hunit.symm.trans hid)
      rcases hmem with rfl | hmem
      · exact .inl rfl
      · exact .inr ⟨target, hmem, rfl, hleads, hfork⟩

/-- So it is with the execution, on which the error of the plan says nothing of the unit. -/
theorem error_of_stray :
    ((Surveying.planner.plan Surveying.units Surveying.stray [.phase "prepare"]).runWith {}).1 =
        .error Surveying.notFound ∧
      Surveying.planner.FailsUnnamed Surveying.stray (.phase "prepare") Surveying.notFound := by
  refine ⟨Surveying.plan_stray, ?_⟩
  obtain ⟨hiff, -⟩ := error_names_unit_iff [Surveying.lifecycle] Surveying.planner rfl _ _ _ _ _
    Surveying.plan_stray
  obtain ⟨task, htask, hfails⟩ := hiff.1 rfl
  exact List.mem_singleton.1 htask ▸ hfails

/-- An error of a plan need not name a unit. -/
theorem error_names_no_unit : ¬ ∀ (attempts : List Lifecycle) (p : Planner),
    p.registry = LifecycleRegistry.after {} attempts → ∀ (units : UnitGraph) (unit : BuildUnit)
      (tasks : List Task) (e : BuildError),
      ((p.plan units unit tasks).runWith {}).1 = .error e → e.context.unit.isSome = true := by
  intro h
  have hsome := h [Surveying.lifecycle] Surveying.planner rfl _ _ _ _ Surveying.plan_stray
  cases hsome

end Planner

end PhasedBuild
