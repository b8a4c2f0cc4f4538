import PhasedBuild.Plan.Tasks
import PhasedBuild.Proofs.Plan.Errors

/-!
# Why a unit has no plan

The kind of an error decides whether a build goes on after it. The faults that planning comes to are
made in few places: where a lifecycle is looked up for a phase, where a goal is looked up in the
catalog, and where the forked work of a step is planned, whose own fault goes into the one of the
step.

* `Planning.FailsFor`: the faults that a computation can come to. There is one rule for each way of
  putting computations together.
* `Planner.failsFor_plan`: a unit has no plan for a reason of `Fault.HindersPlan` only.
* `Fault.HindersPlan.kind_cases`: such a reason is one of configuration if and only if a phase or a
  packaging is to blame.
-/

namespace PhasedBuild

/-! ### The faults -/

namespace Fault

/-- A phase cannot be requested of a unit, or the packaging of the unit is not known. -/
inductive DeniesPhase : Fault → Prop
  | unknownPhase (phase : String) (available : List String) :
    DeniesPhase (.unknownPhase phase available)
  | unknownLifecycle (lifecycle : String) : DeniesPhase (.unknownLifecycle lifecycle)
  | phaseOutsideLifecycle (raw lifecycle : String) :
    DeniesPhase (.phaseOutsideLifecycle raw lifecycle)
  | unknownPackaging (packaging : String) : DeniesPhase (.unknownPackaging packaging)

/-- A goal is not in the catalog. -/
inductive DeniesGoal : Fault → Prop
  | unknownPlugin (plugin : Coordinate) : DeniesGoal (.unknownPlugin plugin)
  | unknownGoal (goal : String) (plugin : Coordinate) (available : List String) :
    DeniesGoal (.unknownGoal goal plugin available)

/-- Why the steps of a request for a phase cannot be told. -/
def HindersPhase (f : Fault) : Prop :=
  f.DeniesPhase ∨ f.DeniesGoal

/-- Why the work that a step forks cannot be told. -/
inductive HindersFork : Fault → Prop
  | phase {f : Fault} (h : f.HindersPhase) : HindersFork f
  | overlay (overlay : String) (plugin : Coordinate) :
    HindersFork (.unknownOverlay overlay plugin)
  | binding (spec : String) : HindersFork (.invalidBinding spec)

/-- Why a unit has no plan. -/
inductive HindersPlan : Fault → Prop
  | phase {f : Fault} (h : f.HindersPhase) : HindersPlan f
  | shorthand (shorthand : String) : HindersPlan (.unknownShorthand shorthand)
  | fork (step : String) {cause : Fault} (h : cause.HindersFork) :
    HindersPlan (.notRunnable step cause)

variable {f : Fault}

/-- A phase that cannot be requested is an error of the configuration. -/
theorem DeniesPhase.kind_eq (h : f.DeniesPhase) : f.kind = .configuration := by
  cases h <;> rfl

/-- A goal that is not in the catalog is an error of resolution. -/
theorem DeniesGoal.kind_eq (h : f.DeniesGoal) : f.kind = .resolution := by
  cases h <;> rfl

/-- What stands in the place of a plan is a matter of configuration if a phase or a packaging is to
blame, and of resolution else: also where the forked work of a step cannot be planned for a reason
of configuration. -/
theorem HindersPlan.kind_cases (h : f.HindersPlan) :
    f.kind = .configuration ∧ f.DeniesPhase ∨ f.kind = .resolution ∧ ¬ f.DeniesPhase := by
  have hgoal : f.kind = .resolution → f.kind = .resolution ∧ ¬ f.DeniesPhase := by
    intro hkind
    refine ⟨hkind, fun hdenies => ?_⟩
    rw [hdenies.kind_eq] at hkind
    cases hkind
  cases h with
  | phase h =>
    rcases h with hphase | hmissing
    · exact .inl ⟨hphase.kind_eq, hphase⟩
    · exact .inr (hgoal hmissing.kind_eq)
  | shorthand _ => exact .inr (hgoal rfl)
  | fork _ _ => exact .inr (hgoal rfl)

end Fault

/-! ### Results -/

section results

variable {α β : Type} {reason : Fault → Prop}

/-- A result is an error for a reason of some sort only. -/
def FailsFor (reason : Fault → Prop) (x : Except BuildError α) : Prop :=
  ∀ e, x = .error e → reason e.fault

namespace FailsFor

/-- A result is no error. -/
theorem ok (a : α) : FailsFor reason (.ok a) :=
  FailsWith.ok a

/-- An error has its own reason. -/
theorem error {e : BuildError} (h : reason e.fault) :
    FailsFor reason (.error e : Except BuildError α) :=
  FailsWith.error h

/-- What fails in two parts fails for the reasons of either. -/
theorem bind {x : Except BuildError α} {f : α → Except BuildError β} (hx : FailsFor reason x)
    (hf : ∀ a, FailsFor reason (f a)) : FailsFor reason (x >>= f) :=
  FailsWith.bind hx hf

/-- Changing a result changes no reason. -/
theorem map {x : Except BuildError α} {f : α → β} (hx : FailsFor reason x) :
    FailsFor reason (x.map f) :=
  FailsWith.map hx

/-- What is done for each element of a list fails for the reasons of each. -/
theorem mapM {f : α → Except BuildError β} {l : List α} (h : ∀ a ∈ l, FailsFor reason (f a)) :
    FailsFor reason (l.mapM f) :=
  FailsWith.mapM h

/-- Reasons may be replaced by weaker ones. -/
theorem imp {other : Fault → Prop} {x : Except BuildError α} (hx : FailsFor reason x)
    (h : ∀ f, reason f → other f) : FailsFor other x :=
  fun e he => h _ (hx e he)

end FailsFor

end results

/-! ### Computations of the planner -/

namespace Planning

variable {α β : Type} {reason : Fault → Prop} {x : Planning α} {f : α → Planning β}

/-- A computation fails for a reason of some sort only, whatever the log that it starts with. -/
def FailsFor (reason : Fault → Prop) (x : Planning α) : Prop :=
  ∀ log, PhasedBuild.FailsFor reason (x.runWith log).1

namespace FailsFor

/-- What needs no planning does not fail. -/
theorem pure (a : α) : FailsFor reason (Pure.pure a) :=
  FailsWith.pure a

/-- An error that is thrown has its own reason. -/
theorem throw {e : BuildError} (h : reason e.fault) :
    FailsFor reason (MonadExcept.throw e : Planning α) :=
  FailsWith.throw h

/-- Warning does not fail. -/
theorem warn (messages : List String) : FailsFor reason (warn messages) :=
  FailsWith.warn messages

/-- Planning in two parts fails for the reasons of either. -/
theorem bind (hx : FailsFor reason x) (hf : ∀ a, FailsFor reason (f a)) :
    FailsFor reason (x >>= f) :=
  FailsWith.bind hx hf

/-- Changing errors changes the reasons for them. -/
theorem mapError {other : Fault → Prop} {change : BuildError → BuildError}
    (hx : FailsFor reason x) (h : ∀ e : BuildError, reason e.fault → other (change e).fault) :
    FailsFor other (mapError change x) :=
  FailsWith.mapError hx h

/-- Planning for each element of a list fails for the reasons of each. -/
theorem mapM {l : List α} (h : ∀ a ∈ l, FailsFor reason (f a)) : FailsFor reason (l.mapM f) :=
  FailsWith.mapM h

/-- Planning step by step fails for the reasons of each step. -/
theorem foldlM {γ : Type} {step : β → γ → Planning β} {l : List γ}
    (h : ∀ b, ∀ c ∈ l, FailsFor reason (step b c)) (b : β) :
    FailsFor reason (l.foldlM step b) :=
  FailsWith.foldlM h b

/-- What follows an error does not matter. -/
theorem throw_bind {e : BuildError} (h : reason e.fault) :
    FailsFor reason ((MonadExcept.throw e : Planning α) >>= f) :=
  FailsWith.throw_bind h

/-- Reasons why planning fails may be replaced by weaker ones. -/
theorem imp {other : Fault → Prop} (hx : FailsFor reason x) (h : ∀ f, reason f → other f) :
    FailsFor other x :=
  fun log => (hx log).imp h

end FailsFor

end Planning

/-! ### Phases and goals -/

/-- A goal is not found because the catalog does not have it. -/
theorem Catalog.failsFor_resolve (c : Catalog) (coordinate : Coordinate) (goal : String) :
    FailsFor Fault.DeniesGoal (c.resolve coordinate goal) := by
  unfold resolve plugin
  refine .bind ?_ fun plugin => ?_
  · split
    next => exact .ok _
    next => exact .error (.unknownPlugin coordinate)
  · split
    next => exact .ok _
    next => exact .error (.unknownGoal goal _ _)

/-- The coordinate of a goal is not found because nobody has its short name. -/
theorem Catalog.failsFor_coordinate (c : Catalog) (goal : GoalSpec) :
    FailsFor (fun f => ∃ name, f = .unknownShorthand name)
      (goal.coordinate c.resolveShorthand) := by
  unfold GoalSpec.coordinate
  split
  next name _ =>
    unfold resolveShorthand
    split
    next => exact .ok _
    next => exact .error ⟨name, rfl⟩
  next => exact .ok _

namespace LifecycleRegistry

variable (r : LifecycleRegistry)

/-- There is no lifecycle for a phase because the phase cannot be requested. -/
theorem failsFor_lifecycleOf (phase : String) :
    FailsFor Fault.HindersPhase (r.lifecycleOf phase) := by
  unfold lifecycleOf
  split
  next => exact .ok _
  next => exact .error (.inl (.unknownPhase phase r.allPhaseNames))

/-- There is no order of a lifecycle because its phases cannot be ordered. -/
theorem failsFor_order (id : String) : FailsFor Fault.HindersPhase (r.order id) := by
  unfold order
  split
  next => exact .ok _
  next => exact .error (.inl (.unknownLifecycle id))

end LifecycleRegistry

/-- There are no bindings of a packaging because the packaging is not known. -/
theorem Packagings.failsFor_bindings (p : Packagings) (packaging : String) :
    FailsFor Fault.HindersPhase (p.bindings packaging) := by
  unfold bindings
  split
  next => exact .error (.inl (.unknownPackaging packaging))
  next => exact .ok _

namespace Planner

variable (p : Planner)

/-- A declared goal has no binding because the catalog does not have the goal. -/
theorem failsFor_declaredBinding? (use : PluginUse) (execution : ExecutionDecl) (goal : String) :
    FailsFor Fault.DeniesGoal (p.declaredBinding? use execution goal) := by
  unfold declaredBinding?
  split
  next => exact .ok _
  next => exact (p.catalog.failsFor_resolve use.coordinate goal).map.bind fun _ => .ok _

/-- The bindings of a unit fail because of its packaging or of a goal that it declares. -/
theorem failsFor_bindings (unit : BuildUnit) (lifecycle : Lifecycle) :
    Planning.FailsFor Fault.HindersPhase (p.bindings unit lifecycle) := by
  refine .bind ?_ fun fromLifecycle => .bind ?_ fun fromPackaging => .bind ?_ fun _ => .pure _
  · exact (Planning.FailsFor.warn _).bind fun _ => .pure _
  · unfold packagingBindings
    split
    case isFalse => exact .pure _
    split
    next e heq => exact .throw (p.packagings.failsFor_bindings unit.packaging e heq)
    next => exact (Planning.FailsFor.warn _).bind fun _ => .pure _
  · intro log
    have hdeclared : FailsFor Fault.DeniesGoal (p.declaredBindings unit) :=
      .bind (.mapM fun entry _ => p.failsFor_declaredBinding? entry.1 entry.2.1 entry.2.2)
        fun _ => .ok _
    exact hdeclared.imp fun _ => .inr

/-- The steps of a request for a phase cannot be told because of the phase, of the packaging of the
unit, or of a goal that is bound. -/
theorem failsFor_mappings (unit : BuildUnit) (raw : String) :
    Planning.FailsFor Fault.HindersPhase (p.mappings unit raw) := by
  have hresolve : ∀ text, Planning.FailsFor Fault.HindersPhase (p.resolveRef text) :=
    fun _ _ => .ok _
  refine (hresolve raw).bind fun requested => ?_
  dsimp only
  split
  case h_2 e heq => exact .throw_bind (p.registry.failsFor_lifecycleOf requested.phase e heq)
  next lifecycle _ =>
  rw [pure_bind]
  split
  case h_2 e heq => exact .throw_bind (p.registry.failsFor_order lifecycle.id e heq)
  rw [pure_bind]
  split
  case h_2 => exact .throw_bind (.inl (.phaseOutsideLifecycle raw lifecycle.id))
  rw [pure_bind]
  refine (p.failsFor_bindings unit lifecycle).bind fun bindings => ?_
  refine .bind (.mapM fun binding _ => ?_) fun placed => .bind (.mapM fun item _ => ?_) fun steps =>
    .pure _
  · unfold place?
    split
    next => exact .pure _
    next phase _ => exact (hresolve phase).bind fun _ => .pure _
  · split
    next => exact .pure _
    next e heq =>
      have hstep : FailsFor Fault.DeniesGoal (p.stepOf .lifecycle item.2) :=
        (p.catalog.failsFor_resolve item.2.plugin item.2.goal).bind fun _ => .ok _
      exact .throw (.inr (hstep e heq))

/-! ### Forked work -/

section forks

variable (parent : Step) (target : BuildUnit)

/-- A goal of an overlay cannot be read, or it has no coordinate. -/
theorem failsFor_overlayGoal (plugin : Coordinate) (goal : String) :
    FailsFor Fault.HindersFork (overlayGoal plugin goal) := by
  unfold overlayGoal StepBinding.parse
  split
  case isFalse => exact .ok _
  split
  next => exact .ok _
  next fault heq =>
    split at heq
    next => cases heq
    next =>
      obtain rfl := Except.error.inj heq
      exact .error (.binding goal)

/-- A step of an overlay cannot be told because of its goal. -/
theorem failsFor_overlayStep (phase : OverlayPhase) (execution : OverlayExecution) (goal : String) :
    FailsFor Fault.HindersFork (p.overlayStep parent target phase execution goal) := by
  refine (failsFor_overlayGoal parent.descriptor.plugin goal).bind fun named => ?_
  have hresolve := (p.catalog.failsFor_resolve named.1 named.2).imp
    fun _ h => Fault.HindersFork.phase (.inr h)
  exact hresolve.bind fun _ => .ok _

/-- Laying an overlay fails because the catalog does not have it, or because of one of its steps. -/
theorem failsFor_applyOverlay (m : Mappings) (id : String) :
    Planning.FailsFor Fault.HindersFork (p.applyOverlay parent target m id) := by
  unfold applyOverlay
  split
  next e heq =>
    have hoverlay : FailsFor Fault.HindersFork (p.catalog.overlay parent.descriptor.plugin id) := by
      unfold Catalog.overlay Catalog.plugin
      refine .bind ?_ fun plugin => ?_
      · split
        next => exact .ok _
        next => exact .error (.phase (.inr (.unknownPlugin _)))
      · split
        next => exact .ok _
        next => exact .error (.overlay id _)
    exact .throw (hoverlay e heq)
  next overlay _ =>
    refine .foldlM (fun m phase _ => ?_) m
    refine .bind (fun _ => .ok _) fun point => ?_
    split
    case isFalse => exact .pure _
    split
    next e heq =>
      have hsteps : FailsFor Fault.HindersFork (p.overlaySteps parent target phase) :=
        .mapM fun item _ => p.failsFor_overlayStep parent target phase item.1 item.2
      exact .throw (hsteps e heq)
    next => exact .pure _

/-- Where the forked work of a step cannot be told, it is the step that is not runnable. -/
theorem failsFor_forkedSteps (fork : ForkSpec) :
    Planning.FailsFor Fault.HindersPlan (p.forkedSteps parent target fork) := by
  unfold forkedSteps
  split
  next phase overlay =>
    have hmappings := (p.failsFor_mappings target phase).imp fun _ => Fault.HindersFork.phase
    refine .mapError (hmappings.bind fun m => ?_) fun e he => .fork parent.display he
    dsimp only
    split
    next => exact (p.failsFor_applyOverlay parent target _ _).bind fun _ => .pure _
    next =>
      rw [pure_bind]
      exact .pure _
  next goal =>
    split
    next e heq =>
      have hdenied := p.catalog.failsFor_resolve _ _ e heq
      exact .throw (.fork parent.display (.phase (.inr hdenied)))
    next => exact .pure _

end forks

/-! ### Plans -/

variable (units : UnitGraph)

/-- Forked work that forks again adds no other reasons. -/
theorem failsFor_expansions :
    (∀ guard unit step, Planning.FailsFor Fault.HindersPlan (p.expandStep units guard unit step)) ∧
    (∀ guard parent fork targets,
      Planning.FailsFor Fault.HindersPlan (p.expandTargets units guard parent fork targets)) ∧
    ∀ guard target steps,
      Planning.FailsFor Fault.HindersPlan (p.expandSteps units guard target steps) := by
  -- the induction goes the way of the expansion
  refine Planner.expandStep.mutual_induct p units _ _ _ ?_ ?_ ?_ ?_ ?_ ?_ ?_
  · intro guard unit step hfork
    rw [expandStep, hfork]
    exact .pure _
  · intro guard unit step fork hfork ih
    rw [expandStep, hfork]
    exact ih.bind fun _ => .pure _
  · intro guard parent fork
    rw [expandTargets]
    exact .pure _
  · intro guard parent fork target rest ihsteps ihrest
    rw [expandTargets]
    refine (p.failsFor_forkedSteps parent target fork).bind fun steps => ?_
    exact (ihsteps steps).bind fun _ => ihrest.bind fun _ => .pure _
  · intro guard target
    rw [expandSteps]
    exact .pure _
  · intro guard target step rest hmem ihstep ihrest
    rw [expandSteps, dif_pos hmem]
    exact ihstep.bind fun _ => ihrest.bind fun _ => .pure _
  · intro guard target step rest hmem ihrest
    rw [expandSteps, dif_neg hmem]
    exact ihrest

/-- The step of a goal that is asked for cannot be told because of the goal. -/
theorem failsFor_goalStep (unit : BuildUnit) (goal : GoalSpec) :
    FailsFor Fault.HindersPlan (p.goalStep unit goal) := by
  refine .bind ?_ fun named => .bind ?_ fun _ => .ok _
  · refine (p.catalog.failsFor_coordinate goal).imp ?_
    rintro _ ⟨name, rfl⟩
    exact .shorthand name
  · exact (p.catalog.failsFor_resolve _ _).imp fun _ h => .phase (.inr h)

/-- A unit has no plan for one of the reasons for that. -/
theorem failsFor_plan (unit : BuildUnit) (tasks : List Task) :
    Planning.FailsFor Fault.HindersPlan (p.plan units unit tasks) := by
  refine .bind (.mapM fun task _ => ?_) fun steps => .bind ?_ fun _ => .pure _
  · unfold taskSteps
    split
    next goal _ =>
      split
      next => exact .pure _
      next e heq => exact .throw (p.failsFor_goalStep unit goal e heq)
    next phase _ =>
      have hmappings := (p.failsFor_mappings unit phase).imp fun _ => Fault.HindersPlan.phase
      exact hmappings.bind fun _ => .pure _
  · refine .mapError (.mapM fun step _ => ?_) fun e he => he
    exact (p.failsFor_expansions units).1 {} unit step.configure

end Planner

end PhasedBuild
