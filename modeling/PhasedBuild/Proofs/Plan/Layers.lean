import PhasedBuild.Plan.Tasks
import PhasedBuild.Proofs.Configuration.Grouping
import PhasedBuild.Proofs.Plan.Forks
import PhasedBuild.Proofs.Plan.Steps

/-!
# The layers of a step's configuration

What is declared for a step is laid over each other in several places: a unit has configurations for
a plugin and for its executions, an overlay has some for the steps that it adds and for phases.

* `Layering.IsOf`: what has been declared for a step of a unit is such a stack.
* `Layering.grouping_does_not_matter`: it is the same however its layers are grouped.
* `Planner.settled_of_yields`: what holds of forked steps where they are made holds of all steps of
  an expanded execution.
* `Planner.names_go_before_other_names`: so all steps of a plan have their parameters from stacks. A
  layer that uses a parameter's own name goes before all that use its other name.
-/

namespace PhasedBuild

/-! ### What a unit declares -/

/-- The configurations that a unit has for an execution of a plugin and for the plugin itself. There
are none if it does not use the plugin. -/
def BuildUnit.Declares (unit : BuildUnit) (coordinate : Coordinate) (id : String)
    (execution plugin : Option ConfigNode) : Prop :=
  (unit.plugin? coordinate = none ∧ execution = none ∧ plugin = none) ∨
    ∃ use ∈ unit.plugins, use.coordinate.key = coordinate.key ∧
      execution = (use.execution? id).bind (·.configuration) ∧ plugin = use.configuration

section declarations

variable {unit : BuildUnit} {coordinate : Coordinate}

/-- The configuration for an execution is that of the execution over that of the plugin. -/
theorem PluginUse.configurationFor_eq_stack (use : PluginUse) (id : String) :
    use.configurationFor id = ConfigNode.stack
      (((use.execution? id).bind (·.configuration)).toList ++ use.configuration.toList) := by
  rw [ConfigNode.stack_toList_append, configurationFor]
  cases use.configuration <;> rfl

/-- The use of a plugin that is found belongs to the unit and to a plugin of the same key. -/
theorem BuildUnit.mem_of_plugin? {use : PluginUse} (h : unit.plugin? coordinate = some use) :
    use ∈ unit.plugins ∧ use.coordinate.key = coordinate.key :=
  ⟨List.mem_of_find?_eq_some h, by simpa using List.find?_some h⟩

/-- What a unit has for an execution comes in two layers, either of which may be missing. -/
theorem BuildUnit.exists_declares (unit : BuildUnit) (coordinate : Coordinate) (id : String) :
    ∃ execution plugin, unit.Declares coordinate id execution plugin ∧
      unit.configurationFor coordinate id =
        ConfigNode.stack (execution.toList ++ plugin.toList) := by
  rw [configurationFor]
  cases h : unit.plugin? coordinate with
  | none => exact ⟨none, none, .inl ⟨h, rfl, rfl⟩, rfl⟩
  | some use =>
    obtain ⟨hmem, hkey⟩ := mem_of_plugin? h
    exact ⟨_, _, .inr ⟨use, hmem, hkey, rfl, rfl⟩, use.configurationFor_eq_stack id⟩

end declarations

/-! ### Layers -/

/-- What has been declared for a step, taken apart. -/
structure Layering where
  /-- The configurations of an overlay's phases, the one that was laid on last first. -/
  phases : List ConfigNode := []
  /-- The configuration of the overlay's execution that added the step. -/
  added : Option ConfigNode := none
  /-- The configuration of the unit's execution. -/
  execution : Option ConfigNode := none
  /-- The configuration that all executions of the unit's plugin share. -/
  plugin : Option ConfigNode := none

namespace Layering

/-- All layers, the dominant one first. -/
def layers (l : Layering) : List ConfigNode :=
  l.phases ++ (l.added.toList ++ (l.execution.toList ++ l.plugin.toList))

/-- The layers of what has been declared for a step of a unit, on which an overlay may have been
laid. -/
structure IsOf (p : Planner) (unit : BuildUnit) (overlay : Option Overlay) (step : PlannedStep)
    (l : Layering) : Prop where
  declared_eq : step.declared = ConfigNode.stack l.layers
  /-- The unit declares its layers for the plugin that the step was looked up in. -/
  unit_declares : ∃ coordinate goal, p.catalog.resolve coordinate goal = .ok step.descriptor ∧
    unit.Declares coordinate step.executionId l.execution l.plugin
  phases_of : ∀ configuration ∈ l.phases, ∃ o, overlay = some o ∧
    ∃ phase ∈ o.phases, phase.configuration = some configuration
  added_of : ∀ configuration, l.added = some configuration → ∃ o, overlay = some o ∧
    ∃ phase ∈ o.phases, ∃ execution ∈ phase.executions,
      execution.configuration = some configuration

end Layering

/-- Three configurations may be laid over each other in either grouping, and a configuration over
itself changes nothing. Any number of layers come to their stack in every grouping, and so do those
of what has been declared for a step. -/
theorem Layering.grouping_does_not_matter :
    (∀ a b c : ConfigNode, (a.mergedOver b).mergedOver c = a.mergedOver (b.mergedOver c)) ∧
    (∀ node : ConfigNode, node.mergedOver node = node) ∧
    (∀ grouping : ConfigNode.Grouping,
      ConfigNode.stack grouping.layers = some grouping.merged) ∧
    ∀ (p : Planner) (unit : BuildUnit) (overlay : Option Overlay) (step : PlannedStep)
      (l : Layering), l.IsOf p unit overlay step →
      ∀ grouping : ConfigNode.Grouping, grouping.layers = l.layers →
        step.declared = some grouping.merged := by
  refine ⟨ConfigNode.mergedOver_assoc, ConfigNode.mergedOver_self,
    ConfigNode.Grouping.stack_layers, ?_⟩
  intro p unit overlay step l hl grouping hlayers
  rw [hl.declared_eq, ← hlayers, grouping.stack_layers]

/-- There are layers for what has been declared for a step. -/
def PlannedStep.IsLayered (p : Planner) (unit : BuildUnit) (overlay : Option Overlay)
    (step : PlannedStep) : Prop :=
  ∃ l : Layering, l.IsOf p unit overlay step

namespace PlannedStep.IsLayered

variable {p : Planner} {unit : BuildUnit} {overlay : Option Overlay} {step : PlannedStep}

/-- The configuration that the unit declares makes the layers of a step on which no overlay has been
laid. -/
theorem of_configurationFor {coordinate : Coordinate} {goal : String}
    (hdescriptor : p.catalog.resolve coordinate goal = .ok step.descriptor)
    (hdeclared : step.declared = unit.configurationFor coordinate step.executionId) :
    step.IsLayered p unit overlay := by
  obtain ⟨execution, plugin, hunit, hstack⟩ := unit.exists_declares coordinate step.executionId
  refine ⟨{ execution, plugin }, ?_, ⟨coordinate, goal, hdescriptor, hunit⟩, ?_, ?_⟩
  · exact hdeclared.trans hstack
  · intro configuration hmem
    cases hmem
  · intro configuration hadded
    cases hadded

/-- Where a step comes from makes no difference. -/
theorem withSource (h : step.IsLayered p unit overlay) (source : StepSource) :
    PlannedStep.IsLayered p unit overlay { step with source } := by
  obtain ⟨l, hl⟩ := h
  exact ⟨l, hl.declared_eq, hl.unit_declares, hl.phases_of, hl.added_of⟩

/-- Steps without an overlay can have any laid on them. -/
theorem withOverlay (h : step.IsLayered p unit none) : step.IsLayered p unit overlay := by
  obtain ⟨l, hl⟩ := h
  refine ⟨l, hl.declared_eq, hl.unit_declares, ?_, ?_⟩
  · intro configuration hmem
    obtain ⟨o, ho, -⟩ := hl.phases_of configuration hmem
    cases ho
  · intro configuration hadded
    obtain ⟨o, ho, -⟩ := hl.added_of configuration hadded
    cases ho

/-- A phase of the overlay lays its configuration over all others. -/
theorem laid {o : Overlay} (h : step.IsLayered p unit (some o)) {phase : OverlayPhase}
    (hphase : phase ∈ o.phases) {configuration : ConfigNode}
    (hconfiguration : phase.configuration = some configuration) :
    (step.overlay configuration).IsLayered p unit (some o) := by
  obtain ⟨l, hl⟩ := h
  refine ⟨{ l with phases := configuration :: l.phases }, ?_, hl.unit_declares, ?_, hl.added_of⟩
  · show some (configuration.overOption step.declared) = _
    rw [hl.declared_eq]
    rfl
  · intro other hother
    rcases List.mem_cons.1 hother with rfl | hother
    · exact ⟨o, rfl, phase, hphase, hconfiguration⟩
    · exact hl.phases_of other hother

end PlannedStep.IsLayered

/-! ### Steps that are planned for a unit -/

/-- The configuration of a binding is what the unit declares for its execution. -/
def StepBinding.IsDeclaredBy (unit : BuildUnit) (binding : StepBinding) : Prop :=
  ∃ execution plugin, unit.Declares binding.plugin binding.executionId execution plugin ∧
    binding.configuration = ConfigNode.stack (execution.toList ++ plugin.toList)

/-- The bindings of a packaging come without configurations. -/
theorem StepBinding.configuration_of_mem_ofSpecs {phase : String} {specs : List String}
    {binding : StepBinding} (h : binding ∈ (ofSpecs phase specs).1) :
    binding.configuration = none := by
  obtain ⟨spec, -, h⟩ := List.mem_filterMap.1 h
  obtain ⟨_, -, rfl⟩ := Option.map_eq_some_iff.1 h
  rfl

namespace Planner

variable {p : Planner} {unit : BuildUnit}

/-- A binding that is adapted to a unit gets the configuration that the unit declares. -/
theorem isDeclaredBy_adapt {binding : StepBinding} (h : binding.configuration = none) :
    (adapt unit binding).IsDeclaredBy unit := by
  unfold adapt
  split
  next use huse =>
    obtain ⟨hmem, -⟩ := BuildUnit.mem_of_plugin? huse
    exact ⟨_, _, .inr ⟨use, hmem, rfl, rfl, rfl⟩, use.configurationFor_eq_stack _⟩
  next hnone => exact ⟨none, none, .inl ⟨hnone, rfl, rfl⟩, h⟩

/-- The binding of a goal that a unit declares has the configuration that the unit declares for
it. -/
theorem isDeclaredBy_of_declaredBinding? {use : PluginUse} (huse : use ∈ unit.plugins)
    {execution : ExecutionDecl} {goal : String} {binding : StepBinding}
    (h : p.declaredBinding? use execution goal = .ok (some binding)) :
    binding.IsDeclaredBy unit := by
  have hsome : ∃ phase, binding =
      { plugin := use.coordinate, goal, phase := some phase, priority := execution.priority
        executionId := execution.id, configuration := use.configurationFor execution.id } := by
    unfold declaredBinding? at h
    split at h
    next phase _ => exact ⟨phase, (Option.some.inj (Except.ok.inj h)).symm⟩
    next =>
      obtain ⟨phase, -, h⟩ := exists_of_bind_eq_ok h
      obtain ⟨phase, -, h⟩ := Option.map_eq_some_iff.1 (Except.ok.inj h)
      exact ⟨phase, h.symm⟩
  obtain ⟨phase, rfl⟩ := hsome
  exact ⟨_, _, .inr ⟨use, huse, rfl, rfl, rfl⟩, use.configurationFor_eq_stack _⟩

/-- So have all bindings that a unit declares. -/
theorem isDeclaredBy_of_mem_declaredBindings {bindings : List StepBinding}
    (h : p.declaredBindings unit = .ok bindings) :
    ∀ binding ∈ bindings, binding.IsDeclaredBy unit := by
  obtain ⟨found, hfound, h⟩ := exists_of_bind_eq_ok h
  obtain rfl := Except.ok.inj h
  intro binding hbinding
  obtain ⟨_, hmem, rfl⟩ := List.mem_filterMap.1 hbinding
  obtain ⟨⟨use, execution, goal⟩, hgoal, h⟩ := exists_of_mapM_eq_ok hfound _ hmem
  obtain ⟨used, hused, hgoal⟩ := List.mem_flatMap.1 hgoal
  obtain ⟨_, -, hgoal⟩ := List.mem_flatMap.1 hgoal
  obtain ⟨_, -, heq⟩ := List.mem_map.1 hgoal
  cases heq
  exact isDeclaredBy_of_declaredBinding? hused h

/-- Bindings of a lifecycle and of a packaging have no configuration until they are adapted to a
unit. -/
theorem ensures_isDeclaredBy_bindings (lifecycle : Lifecycle) :
    Planning.Ensures (fun _ => True) (p.bindings unit lifecycle)
      fun bindings => ∀ binding ∈ bindings, binding.IsDeclaredBy unit := by
  have hlifecycle : Planning.Ensures (fun _ => True) (lifecycleBindings lifecycle)
      fun bindings => ∀ binding ∈ bindings, binding.configuration = none := by
    refine .bind .any fun _ _ => .pure ?_
    intro binding hbinding
    obtain ⟨read, hread, hbinding⟩ := List.mem_flatMap.1 hbinding
    obtain ⟨phase, -, rfl⟩ := List.mem_map.1 hread
    exact StepBinding.configuration_of_mem_ofSpecs hbinding
  have hpackaging : Planning.Ensures (fun _ => True) (p.packagingBindings unit lifecycle)
      fun bindings => ∀ binding ∈ bindings, binding.configuration = none := by
    unfold packagingBindings
    split
    next =>
      split
      next => exact .throw _
      next bindings messages heq =>
        refine .bind .any fun _ _ => .pure ?_
        intro binding hbinding
        unfold Packagings.bindings at heq
        split at heq
        next => cases heq
        next phases _ =>
          obtain ⟨rfl, -⟩ := Prod.mk.inj (Except.ok.inj heq)
          obtain ⟨read, hread, hbinding⟩ := List.mem_flatMap.1 hbinding
          obtain ⟨_, -, rfl⟩ := List.mem_map.1 hread
          exact StepBinding.configuration_of_mem_ofSpecs hbinding
    next => exact .pure fun binding hbinding => absurd hbinding List.not_mem_nil
  have hdeclared : Planning.Ensures (fun _ => True)
      (bindings.liftExcept (p.declaredBindings unit))
      fun bindings => ∀ binding ∈ bindings, binding.IsDeclaredBy unit := by
    intro log _
    exact ⟨trivial, fun bindings h => isDeclaredBy_of_mem_declaredBindings h⟩
  refine hlifecycle.bind fun fromLifecycle hfirst => ?_
  refine hpackaging.bind fun fromPackaging hsecond => ?_
  refine hdeclared.bind fun declared hthird => .pure ?_
  intro binding hbinding
  rcases List.mem_append.1 hbinding with hmem | hmem
  · obtain ⟨origin, horigin, rfl⟩ := List.mem_map.1 hmem
    exact isDeclaredBy_adapt ((List.mem_append.1 horigin).elim (hfirst origin) (hsecond origin))
  · exact hthird binding hmem

/-- The step of such a binding has layers. -/
theorem isLayered_of_stepOf {source : StepSource} {binding : StepBinding} {step : PlannedStep}
    (hbinding : binding.IsDeclaredBy unit) (h : p.stepOf source binding = .ok step) :
    step.IsLayered p unit none := by
  obtain ⟨descriptor, hdescriptor, h⟩ := exists_of_bind_eq_ok h
  obtain rfl := Except.ok.inj h
  obtain ⟨execution, plugin, hunit, hstack⟩ := hbinding
  refine ⟨{ execution, plugin }, hstack, ⟨_, _, hdescriptor, hunit⟩, ?_, ?_⟩
  · intro configuration hmem
    cases hmem
  · intro configuration hadded
    cases hadded

/-- All steps of the mappings of a unit have layers, and no overlay on them. -/
theorem isLayered_mappings (unit : BuildUnit) (raw : String) :
    Planning.Ensures (fun _ => True) (p.mappings unit raw)
      fun m => ∀ step ∈ m.steps, step.IsLayered p unit none :=
  ensures_steps_mappings (StepBinding.IsDeclaredBy unit) raw ensures_isDeclaredBy_bindings
    fun _ _ => isLayered_of_stepOf

/-- The step of a goal that is asked for has layers, and no overlay on them. -/
theorem isLayered_of_goalStep {goal : GoalSpec} {step : PlannedStep}
    (h : p.goalStep unit goal = .ok step) : step.IsLayered p unit none := by
  obtain ⟨named, -, h⟩ := exists_of_bind_eq_ok h
  obtain ⟨descriptor, hdescriptor, h⟩ := exists_of_bind_eq_ok h
  obtain rfl := Except.ok.inj h
  exact .of_configurationFor hdescriptor rfl

/-- All steps of a task have layers, and no overlay on them. -/
theorem isLayered_taskSteps (unit : BuildUnit) (task : Task) :
    Planning.Ensures (fun _ => True) (p.taskSteps unit task)
      fun steps => ∀ step ∈ steps, step.IsLayered p unit none := by
  cases task with
  | goal goal =>
    unfold taskSteps
    simp only
    split
    next step heq =>
      refine .pure fun other hother => ?_
      obtain rfl := List.mem_singleton.1 hother
      exact isLayered_of_goalStep heq
    next => exact .throw _
  | phase phase => exact (isLayered_mappings unit phase).bind fun m hm => .pure hm

/-! ### Forked steps -/

section forks

variable {parent : Step} {target : BuildUnit}

/-- The steps that an overlay adds have the configuration of its execution over what the unit
declares. -/
theorem isLayered_of_overlaySteps {overlay : Overlay} {phase : OverlayPhase}
    (hphase : phase ∈ overlay.phases) {steps : List PlannedStep}
    (h : p.overlaySteps parent target phase = .ok steps) :
    ∀ step ∈ steps, step.source = .forked ∧ step.IsLayered p target (some overlay) := by
  intro step hstep
  obtain ⟨⟨execution, goal⟩, hmem, h⟩ := exists_of_mapM_eq_ok h step hstep
  obtain ⟨⟨plugin, goal⟩, -, h⟩ := exists_of_bind_eq_ok h
  obtain ⟨descriptor, hdescriptor, h⟩ := exists_of_bind_eq_ok h
  obtain rfl := Except.ok.inj h
  refine ⟨rfl, ?_⟩
  obtain ⟨declared, shared, hunit, hstack⟩ := target.exists_declares plugin parent.executionId
  refine ⟨{ added := execution.configuration, execution := declared, plugin := shared }, ?_,
    ⟨plugin, goal, hdescriptor, hunit⟩, ?_, ?_⟩
  · rw [hstack]
    exact (ConfigNode.stack_toList_append _ _).symm
  · intro configuration hmem
    cases hmem
  · intro configuration hadded
    obtain ⟨found, hfound, hgoal⟩ := List.mem_flatMap.1 hmem
    obtain ⟨_, -, heq⟩ := List.mem_map.1 hgoal
    cases heq
    exact ⟨overlay, rfl, phase, hphase, execution, hfound, hadded⟩

end forks

/-- The layers of what has been declared for a step of a unit. Overlays are those of the catalog,
and only forked steps have one. -/
def Lays (p : Planner) (unit : BuildUnit) (step : PlannedStep) (l : Layering) : Prop :=
  ∃ overlay, (∀ o, overlay = some o →
      step.source = .forked ∧ ∃ plugin id, p.catalog.overlay plugin id = .ok o) ∧
    l.IsOf p unit overlay step

/-- A step without an overlay has the layers of the unit alone. -/
theorem exists_lays_of_isLayered {step : PlannedStep} (h : step.IsLayered p unit none) :
    ∃ l, p.Lays unit step l := by
  obtain ⟨l, hl⟩ := h
  refine ⟨l, none, ?_, hl⟩
  intro o ho
  cases ho

/-- Laying an overlay over forked steps leaves them with layers, the overlay's on top. -/
theorem lays_applyOverlay {parent : Step} {target : BuildUnit} {m : Mappings} {id : String}
    (hsource : ∀ step ∈ m.steps, step.source = .forked)
    (h : ∀ step ∈ m.steps, step.IsLayered p target none) :
    Planning.Ensures (fun _ => True) (p.applyOverlay parent target m id)
      fun m => ∀ step ∈ m.steps, ∃ l, p.Lays target step l := by
  cases hoverlay : p.catalog.overlay parent.descriptor.plugin id with
  | error e =>
    unfold applyOverlay
    rw [hoverlay]
    exact .throw _
  | ok overlay =>
    have hlayered : Planning.Ensures (fun _ => True) (p.applyOverlay parent target m id)
        fun m => ∀ step ∈ m.steps, step.source = .forked ∧
          step.IsLayered p target (some overlay) := by
      apply ensures_applyOverlay
      · intro o ho phase hphase steps hsteps
        obtain rfl := Except.ok.inj (hoverlay.symm.trans ho)
        exact isLayered_of_overlaySteps hphase hsteps
      · intro o ho phase hphase configuration hconfiguration step hstep
        obtain rfl := Except.ok.inj (hoverlay.symm.trans ho)
        exact ⟨hstep.1, hstep.2.laid hphase hconfiguration⟩
      · intro step hstep
        exact ⟨hsource step hstep, (h step hstep).withOverlay⟩
    refine hlayered.imp fun m hm step hstep => ?_
    obtain ⟨hforked, l, hl⟩ := hm step hstep
    refine ⟨l, some overlay, ?_, hl⟩
    intro o ho
    obtain rfl := Option.some.inj ho
    exact ⟨hforked, _, _, hoverlay⟩

/-- There are layers for what has been declared for each forked step. -/
theorem lays_forkedSteps (parent : Step) (target : BuildUnit) (fork : ForkSpec) :
    Planning.Ensures (fun _ => True) (p.forkedSteps parent target fork)
      fun steps => ∀ step ∈ steps, ∃ l, p.Lays target step l := by
  unfold forkedSteps
  split
  next phase overlay =>
    refine .mapError ((isLayered_mappings target phase).bind fun m hm => ?_)
    have hlayered : ∀ step ∈ (m.mapSteps fun step => { step with source := .forked }).steps,
        step.source = .forked ∧ step.IsLayered p target none :=
      Mappings.forall_steps_mapSteps hm fun step hstep => ⟨rfl, hstep.withSource .forked⟩
    dsimp only
    split
    next =>
      refine Planning.Ensures.bind (lays_applyOverlay (fun step hstep => (hlayered step hstep).1)
        fun step hstep => (hlayered step hstep).2) fun m hm => .pure hm
    next =>
      rw [pure_bind]
      exact .pure fun step hstep => exists_lays_of_isLayered (hlayered step hstep).2
  next goal =>
    split
    next => exact .throw _
    next descriptor hdescriptor =>
      refine .pure fun step hstep => ?_
      obtain rfl := List.mem_singleton.1 hstep
      exact exists_lays_of_isLayered (.of_configurationFor hdescriptor rfl)

end Planner

/-! ### All steps of an expanded execution -/

/-- Steps with their units come from planned steps of a kind. -/
def Settled (kind : BuildUnit → PlannedStep → Prop) (entries : List (String × Nat × Step)) : Prop :=
  ∀ entry ∈ entries, ∃ target planned,
    target.id = entry.1 ∧ planned.configure = entry.2.2 ∧ kind target planned

section settled

variable {kind : BuildUnit → PlannedStep → Prop}

/-- Two lists of steps are settled if each of them is. -/
theorem settled_append {first second : List (String × Nat × Step)} (hfirst : Settled kind first)
    (hsecond : Settled kind second) : Settled kind (first ++ second) := fun entry hentry =>
  (List.mem_append.1 hentry).elim (hfirst entry) (hsecond entry)

/-- An execution is settled if its own step comes from a planned one and all that it forks is
settled. -/
theorem settled_flatten {e : Execution} {unit : BuildUnit} {planned : PlannedStep} {depth : Nat}
    (hstep : e.step = planned.configure) (hkind : kind unit planned)
    (hforked : Settled kind (Execution.flattenUnits (depth + 1) e.forkedUnits)) :
    Settled kind (e.flatten unit.id depth) := by
  have hself : Settled kind [(unit.id, depth, e.step)] := by
    intro entry hentry
    obtain rfl := List.mem_singleton.1 hentry
    exact ⟨unit, planned, rfl, hstep.symm, hkind⟩
  obtain ⟨step, forks⟩ := e
  cases forks with
  | pending => exact hself
  | notForking => exact hself
  | expanded units => exact settled_append hforked hself

/-- A list of executions is settled if each of them is. -/
theorem settled_flattenList {id : String} {depth : Nat} {executions : List Execution}
    (h : ∀ e ∈ executions, Settled kind (e.flatten id depth)) :
    Settled kind (Execution.flattenList id depth executions) := by
  induction executions with
  | nil => exact fun entry hentry => absurd hentry List.not_mem_nil
  | cons e rest ih =>
    obtain ⟨he, hrest⟩ := List.forall_mem_cons.1 h
    exact settled_append he (ih hrest)

end settled

namespace Planner

section expansion

variable {p : Planner} {units : UnitGraph} {kind : BuildUnit → PlannedStep → Prop}
  {among : BuildUnit → Prop}

/-- What all units of a build are among, the units of forked work are among. -/
theorem among_of_mem_forkTargets {unit : BuildUnit} (hunits : ∀ unit ∈ units.sorted, among unit)
    (hunit : among unit) (aggregator : Bool) :
    ∀ target ∈ forkTargets units unit aggregator, among target := by
  have hself : ∀ target ∈ [unit], among target := fun target htarget =>
    List.mem_singleton.1 htarget ▸ hunit
  unfold forkTargets
  split
  next =>
    split
    next => exact hself
    next =>
      intro target htarget
      exact hunits target (List.mem_of_mem_filter htarget)
  next => exact hself

/-- All steps that are forked on some units come from planned steps of a kind if those that are
forked directly do. -/
theorem settled_of_yields (hunits : ∀ unit ∈ units.sorted, among unit)
    (hforked : ∀ parent target fork, among target →
      Planning.Ensures (fun _ => True) (p.forkedSteps parent target fork)
        fun steps => ∀ step ∈ steps, kind target step) :
    (∀ guard unit step e, (p.expandStep units guard unit step).Yields e → among unit →
      e.step = step ∧ ∀ depth, Settled kind (Execution.flattenUnits depth e.forkedUnits)) ∧
    (∀ guard parent fork targets forked,
      (p.expandTargets units guard parent fork targets).Yields forked →
        (∀ target ∈ targets, among target) →
          ∀ depth, Settled kind (Execution.flattenUnits depth forked)) ∧
    (∀ guard target steps executions, (p.expandSteps units guard target steps).Yields executions →
      among target → (∀ step ∈ steps, kind target step) →
        ∀ depth, Settled kind (Execution.flattenList target.id depth executions)) := by
  have hnone : Settled kind [] := fun entry hentry => absurd hentry List.not_mem_nil
  -- the induction goes the way of the expansion
  refine Planner.expandStep.mutual_induct p units _ _ _ ?_ ?_ ?_ ?_ ?_ ?_ ?_
  · intro guard unit step hfork e h _
    rw [expandStep, hfork] at h
    obtain rfl := Planning.yields_pure_iff.1 h
    exact ⟨rfl, fun _ => hnone⟩
  · intro guard unit step fork hfork ih e h hunit
    rw [expandStep, hfork] at h
    obtain ⟨forked, hyields, h⟩ := h.bind
    obtain rfl := Planning.yields_pure_iff.1 h
    exact ⟨rfl, ih forked hyields (among_of_mem_forkTargets hunits hunit _)⟩
  · intro guard parent fork forked h _ depth
    rw [expandTargets] at h
    obtain rfl := Planning.yields_pure_iff.1 h
    exact hnone
  · intro guard parent fork target rest ihsteps ihrest forked h hamong depth
    obtain ⟨htarget, hrest⟩ := List.forall_mem_cons.1 hamong
    rw [expandTargets] at h
    obtain ⟨steps, ⟨log, hsteps⟩, h⟩ := h.bind
    obtain ⟨executions, hexecutions, h⟩ := h.bind
    obtain ⟨others, hothers, h⟩ := h.bind
    obtain rfl := Planning.yields_pure_iff.1 h
    have hkind := (hforked parent target fork htarget log trivial).2 steps hsteps
    have hsettled := ihrest others hothers hrest depth
    split
    next => exact hsettled
    next => exact settled_append (ihsteps steps executions hexecutions htarget hkind depth) hsettled
  · intro guard target executions h _ _ depth
    rw [expandSteps] at h
    obtain rfl := Planning.yields_pure_iff.1 h
    exact hnone
  · intro guard target step rest hmem ihstep ihrest executions h htarget hkind depth
    obtain ⟨hstep, hrest⟩ := List.forall_mem_cons.1 hkind
    rw [expandSteps, dif_pos hmem] at h
    obtain ⟨execution, hexecution, h⟩ := h.bind
    obtain ⟨others, hothers, h⟩ := h.bind
    obtain rfl := Planning.yields_pure_iff.1 h
    obtain ⟨hself, hdeeper⟩ := ihstep execution hexecution htarget
    exact settled_append (settled_flatten hself hstep (hdeeper (depth + 1)))
      (ihrest others hothers htarget hrest depth)
  · intro guard target step rest hmem ihrest executions h htarget hkind depth
    rw [expandSteps, dif_neg hmem] at h
    exact ihrest executions h htarget (List.forall_mem_cons.1 hkind).2 depth

/-- All steps of a plan come from planned steps of a kind if those of its tasks and all forked ones
do. -/
theorem settled_plan (among : BuildUnit → Prop) {unit : BuildUnit}
    (hunits : ∀ unit ∈ units.sorted, among unit) (hunit : among unit) {tasks : List Task}
    (htasks : ∀ task ∈ tasks, Planning.Ensures (fun _ => True) (p.taskSteps unit task)
      fun steps => ∀ step ∈ steps, kind unit step)
    (hforked : ∀ parent target fork, among target →
      Planning.Ensures (fun _ => True) (p.forkedSteps parent target fork)
        fun steps => ∀ step ∈ steps, kind target step) :
    Planning.Ensures (fun _ => True) (p.plan units unit tasks)
      fun plan => Settled kind (Execution.flattenList plan.unit 0 plan.executions) := by
  refine (Planning.Ensures.forall_mapM htasks).bind fun steps hsteps => ?_
  have hexpanded : Planning.Ensures (fun _ => True)
      (Planning.mapError (·.withUnit unit.id)
        (steps.flatten.mapM fun step => p.expand units unit { step := step.configure }))
      fun executions => ∀ e ∈ executions, Settled kind (e.flatten unit.id 0) := by
    refine .mapError (.forall_mapM fun step hstep => ?_)
    obtain ⟨found, hfound, hstep⟩ := List.mem_flatten.1 hstep
    intro log _
    refine ⟨trivial, fun e he => ?_⟩
    obtain ⟨hself, hdeeper⟩ := (settled_of_yields hunits hforked).1 _ _ _ e ⟨log, he⟩ hunit
    exact settled_flatten hself (hsteps found hfound step hstep) (hdeeper 1)
  exact hexpanded.bind fun executions hexecutions => .pure (settled_flattenList hexecutions)

end expansion

end Planner

/-! ### A parameter under two names -/

namespace Compilation

/-- The plugin of a compiler. -/
def plugin : Coordinate where
  group := "org.acme"
  artifact := "acme-plugin"

/-- What is compiled for, which has two names. -/
def parameter : Parameter where
  name := "target"
  otherName := some "release"

/-- The goal that compiles. -/
def descriptor : StepDescriptor where
  plugin := plugin
  goal := "compile"
  parameters := [parameter]

/-- A planner that knows the compiler. -/
def planner : Planner where
  catalog.plugins := [("org.acme:acme-plugin", { coordinate := plugin, goals := [descriptor] })]

/-- A configuration of one value. -/
def setting (name value : String) : ConfigNode where
  name := ConfigNode.rootName
  children := [{ name, value := some value }]

/-- A plugin with one setting under the parameter's name and an execution with another one under the
other name. -/
def use : PluginUse where
  coordinate := plugin
  configuration := some (setting "target" "8")
  executions := [{ id := "modern", configuration := some (setting "release" "21") }]

/-- A unit that uses the compiler. -/
def unit : BuildUnit where
  id := "app"
  plugins := [use]

/-- The unit alone. -/
def units : UnitGraph where
  units := [unit]
  sorted := [unit]
  arranged := ⟨rfl, trivial⟩

/-- The execution of the compiler. -/
def task : Task :=
  .goal { plugin := .coordinate plugin, goal := "compile", executionId := some "modern" }

/-- Its planned step. -/
def planned : PlannedStep where
  descriptor := descriptor
  executionId := "modern"
  source := .cli
  declared := use.configurationFor "modern"

/-- The plan of the unit. -/
def plan : ExecutionPlan where
  unit := "app"
  executions := [⟨planned.configure, .notForking⟩]

/-- The layers of the planned step. -/
def layering : Layering where
  execution := some (setting "release" "21")
  plugin := some (setting "target" "8")

/-- The unit is planned for the execution of the compiler alone. -/
theorem plan_eq : ((planner.plan units unit [task]).runWith {}).1 = .ok plan := by
  have htask : planner.taskSteps unit task = pure [planned] := rfl
  have hexpand : planner.expand units unit { step := planned.configure } =
      pure ⟨planned.configure, .notForking⟩ :=
    Planner.expandStep_of_fork_eq_none rfl {} unit
  rw [Planner.plan, List.mapM_cons, List.mapM_nil, htask]
  simp only [pure_bind, List.flatten_cons, List.flatten_nil, List.append_nil, List.mapM_cons,
    List.mapM_nil, hexpand]
  rfl

/-- The planned step has the layers of the unit. -/
theorem lays_planned : planner.Lays unit planned layering := by
  refine ⟨none, ?_, ⟨?_, ?_, ?_, ?_⟩⟩
  · intro o ho
    cases ho
  · rfl
  · exact ⟨plugin, "compile", rfl, .inr ⟨use, List.mem_cons_self, rfl, rfl, rfl⟩⟩
  · intro configuration hmem
    cases hmem
  · intro configuration hadded
    cases hadded

end Compilation

/-! ### The final values -/

namespace Planner

/-- What has been declared for a step of a plan, forked ones included, is a stack of layers that the
unit of the step and an overlay declare. The final value of each of its parameters is what these
layers give it. -/
theorem names_go_before_other_names (p : Planner) (units : UnitGraph) (unit : BuildUnit)
    (tasks : List Task) (log : PlanningLog) (plan : ExecutionPlan)
    (h : ((p.plan units unit tasks).runWith log).1 = .ok plan) :
    ∀ entry ∈ Execution.flattenList plan.unit 0 plan.executions,
      ∃ target planned l, (target = unit ∨ target ∈ units.units) ∧ target.id = entry.1 ∧
        planned.configure = entry.2.2 ∧ p.Lays target planned l ∧
        entry.2.2.configuration.children = entry.2.2.descriptor.parameters.filterMap
          (entry.2.2.descriptor.finalNode? (ConfigNode.stack l.layers)) ∧
        ∀ parameter ∈ entry.2.2.descriptor.parameters,
          (entry.2.2.descriptor.finalNode? (ConfigNode.stack l.layers) parameter).bind (·.value) =
            (parameter.valueIn? l.layers).or (entry.2.2.descriptor.defaultValueOf? parameter) := by
  intro entry hentry
  have hsettled : Planning.Ensures (fun _ => True) (p.plan units unit tasks) fun plan =>
      Settled (fun target planned =>
          (target = unit ∨ target ∈ units.units) ∧ ∃ l, p.Lays target planned l)
        (Execution.flattenList plan.unit 0 plan.executions) := by
    apply settled_plan fun target => target = unit ∨ target ∈ units.units
    · intro target htarget
      exact .inr (units.sorted_perm.mem_iff.1 htarget)
    · exact .inl rfl
    · intro task _
      refine (isLayered_taskSteps unit task).imp fun steps hsteps step hstep => ?_
      exact ⟨.inl rfl, exists_lays_of_isLayered (hsteps step hstep)⟩
    · intro parent target fork htarget
      refine (lays_forkedSteps parent target fork).imp fun steps hsteps step hstep => ?_
      exact ⟨htarget, hsteps step hstep⟩
  obtain ⟨target, planned, hid, hconfigure, htarget, l, hl⟩ :=
    (hsettled log trivial).2 plan h entry hentry
  refine ⟨target, planned, l, htarget, hid, hconfigure, hl, ?_, ?_⟩
  · obtain ⟨overlay, -, hof⟩ := hl
    rw [← hconfigure, ← hof.declared_eq]
    rfl
  · intro parameter _
    exact StepDescriptor.value_finalNode? _ parameter l.layers

/-- The parameter of the planned step has the value of the dominant layer that sets it under either
of its names. -/
theorem layers_of_compilation :
    ((Compilation.planner.plan Compilation.units Compilation.unit [Compilation.task]).runWith
      {}).1 = .ok Compilation.plan ∧
    ∃ planned l, planned.configure = Compilation.planned.configure ∧
      Compilation.planner.Lays Compilation.unit planned l ∧
      (Compilation.descriptor.finalNode? (ConfigNode.stack l.layers)
        Compilation.parameter).bind (·.value) = Compilation.parameter.valueIn? l.layers := by
  refine ⟨Compilation.plan_eq, ?_⟩
  obtain ⟨target, planned, l, htarget, -, hconfigure, hlays, -, hvalue⟩ :=
    names_go_before_other_names _ _ _ _ _ _ Compilation.plan_eq
      ("app", 0, Compilation.planned.configure) (by exact List.mem_cons_self)
  have hunit : target = Compilation.unit :=
    htarget.elim id fun hmem => List.mem_singleton.1 hmem
  subst hunit
  refine ⟨planned, l, hconfigure, hlays, ?_⟩
  have hfinal := hvalue Compilation.parameter List.mem_cons_self
  have hdefault : Compilation.descriptor.defaultValueOf? Compilation.parameter = none := rfl
  rwa [show (Compilation.planned.configure).descriptor = Compilation.descriptor from rfl, hdefault,
    Option.or_none] at hfinal

end Planner

/-- The children of a layer that set a parameter, under either of its names. -/
def Parameter.settingsIn (p : Parameter) (layer : ConfigNode) : List ConfigNode :=
  layer.children.filter fun child => child.name == p.name || some child.name == p.otherName

/-- A dominant layer that uses the other name of a parameter need not decide its value. -/
theorem Planner.other_names_do_not_dominate : ¬ ∀ (p : Planner) (units : UnitGraph)
    (unit : BuildUnit) (tasks : List Task) (log : PlanningLog) (plan : ExecutionPlan),
    ((p.plan units unit tasks).runWith log).1 = .ok plan →
    ∀ entry ∈ Execution.flattenList plan.unit 0 plan.executions,
      ∀ target planned l, (target = unit ∨ target ∈ units.units) → target.id = entry.1 →
        planned.configure = entry.2.2 → p.Lays target planned l →
        ∀ parameter ∈ entry.2.2.descriptor.parameters,
          (∀ layer ∈ l.layers, (parameter.settingsIn layer).length ≤ 1 ∧
            ∀ child ∈ parameter.settingsIn layer, child.value.isSome = true) →
          (entry.2.2.descriptor.finalNode? (ConfigNode.stack l.layers) parameter).bind (·.value) =
            (l.layers.findSome? fun layer => (parameter.settingsIn layer).findSome? (·.value)).or
              (entry.2.2.descriptor.defaultValueOf? parameter) := by
  intro h
  have hvalue := h _ _ _ _ _ _ Compilation.plan_eq ("app", 0, Compilation.planned.configure)
    (by exact List.mem_cons_self) Compilation.unit Compilation.planned Compilation.layering
    (.inl rfl) rfl rfl Compilation.lays_planned Compilation.parameter List.mem_cons_self
    (by decide)
  rw [StepDescriptor.value_finalNode?] at hvalue
  revert hvalue
  decide

end PhasedBuild
