import PhasedBuild.Proofs.Plan.Shape

/-!
# What is left out of forked work

A step that forks a phase forks the mappings of each unit, less the steps that the guard holds. The
guard does not tell units apart: what comes before an ancestor of a step is left out of all that the
step forks, on other units as well.

* `Planner.forkedMappings`: the mappings of a unit for a fork, which do not depend on the log.
* `Planner.newSteps`: the steps of a list without those of some identities, each identity once.
* `Planner.forked_phase_keeps_new_steps`: these are forked, in the order of the mappings.
* `Planner.planned_on_other_unit`: some are left out for what is planned on another unit only.
-/

namespace PhasedBuild

namespace Planner

variable {p : Planner} {units : UnitGraph}

/-! ### The mappings of a fork -/

/-- The mappings of a unit for a fork: those of the phase, as forked steps, and the overlay. -/
def forkedMappings (p : Planner) (parent : Step) (target : BuildUnit) (phase : String)
    (overlay : Option String) : Planning Mappings := do
  let mappings ← p.mappings target phase
  let mappings := mappings.mapSteps fun step => { step with source := .forked }
  match overlay with
  | some id => p.applyOverlay parent target mappings id
  | none => pure mappings

/-- What a step forks for a phase on a unit are the steps of the mappings of that unit. -/
theorem forkedSteps_phase (parent : Step) (target : BuildUnit) (phase : String)
    (overlay : Option String) :
    p.forkedSteps parent target (.phase phase overlay) =
      Planning.mapError (notRunnable parent target)
        (Mappings.steps <$> p.forkedMappings parent target phase overlay) := by
  rw [forkedSteps, forkedMappings, map_bind]
  cases overlay with
  | none => rfl
  | some => rfl

/-- The mappings of a unit do not depend on the log. -/
theorem determined_mappings (unit : BuildUnit) (raw : String) :
    Planning.Determined p.Remembers (p.mappings unit raw) := by
  refine (p.determined_resolveRef raw).bind fun requested => ?_
  -- an error in one of the three questions about the request ends the computation
  dsimp only
  split
  case h_2 => exact .throw_bind
  case h_1 lifecycle _ =>
  rw [pure_bind]
  split
  case h_2 => exact .throw_bind
  case h_1 order _ =>
  rw [pure_bind]
  split
  case h_2 => exact .throw_bind
  case h_1 last _ =>
  rw [pure_bind]
  refine (p.determined_of_onlyReports (onlyReports_bindings unit lifecycle)).bind fun bindings => ?_
  refine (Planning.Determined.mapM fun binding _ => ?_).bind fun placed =>
    (Planning.Determined.mapM fun _ _ => ?_).bind fun _ => .pure _
  · unfold place?
    split
    next => exact .pure _
    next phase _ => exact (p.determined_resolveRef phase).bind fun _ => .pure _
  · split
    next => exact .pure _
    next => exact .throw _

/-- What laying an overlay comes to does not depend on the log. -/
theorem determined_applyOverlay (parent : Step) (target : BuildUnit) (m : Mappings) (id : String) :
    Planning.Determined p.Remembers (p.applyOverlay parent target m id) := by
  unfold applyOverlay
  split
  next => exact .throw _
  next overlay _ =>
    refine .foldlM (fun m phase _ => (p.determined_resolveRef phase.id).bind fun point => ?_) m
    split
    case isFalse => exact .pure _
    split
    next => exact .throw _
    next => exact .pure _

/-- The mappings of a unit for a fork do not depend on what has been planned before. -/
theorem determined_forkedMappings (parent : Step) (target : BuildUnit) (phase : String)
    (overlay : Option String) :
    Planning.Determined p.Remembers (p.forkedMappings parent target phase overlay) := by
  refine (determined_mappings target phase).bind fun m => ?_
  split
  next id => exact determined_applyOverlay parent target _ id
  next => exact .pure _

/-- Forked steps for a phase are the steps of the mappings of the unit. -/
def OffersMappings (p : Planner) (parent : Step) (target : BuildUnit) (fork : ForkSpec)
    (steps : List PlannedStep) : Prop :=
  ∀ phase overlay, fork = .phase phase overlay →
    ∃ m : Mappings, m.steps = steps ∧ ∀ log, p.Remembers log →
      ((p.forkedMappings parent target phase overlay).runWith log).1 = .ok m

/-- What is offered on a unit for a fork of a phase are the steps of the mappings of that unit. -/
theorem offersMappings_forkedSteps (parent : Step) (target : BuildUnit) (fork : ForkSpec) :
    Planning.Ensures p.Remembers (p.forkedSteps parent target fork)
      (p.OffersMappings parent target fork) := by
  cases fork with
  | goal goal =>
    have hnone : ∀ steps, p.OffersMappings parent target (.goal goal) steps :=
      fun _ _ _ h => nomatch h
    unfold forkedSteps
    dsimp only
    split
    next => exact .throw _
    next => exact .pure (hnone _)
  | phase phase overlay =>
    rw [forkedSteps_phase, map_eq_pure_bind]
    refine .mapError ((determined_forkedMappings parent target phase overlay).ensures.bind ?_)
    rintro m hm
    refine .pure ?_
    rintro _ _ ⟨⟩
    exact ⟨m, rfl, hm⟩

/-! ### New steps -/

/-- The steps of a list without those of some identities, each identity once. -/
def newSteps (held : List StepKey) (steps : List PlannedStep) : List PlannedStep :=
  (steps.filter (·.key ∉ held)).eraseDupsBy (·.key == ·.key)

/-- A step that is held is left out. -/
theorem newSteps_cons_of_mem {held : List StepKey} {step : PlannedStep} {rest : List PlannedStep}
    (h : step.key ∈ held) : newSteps held (step :: rest) = newSteps held rest := by
  simp [newSteps, h]

/-- A step that is not held stays, and is held from then on. -/
theorem newSteps_cons_of_not_mem {held : List StepKey} {step : PlannedStep}
    {rest : List PlannedStep} (h : step.key ∉ held) :
    newSteps held (step :: rest) = step :: newSteps (step.key :: held) rest := by
  simp [newSteps, h, List.eraseDupsBy_cons, List.filter_filter]

/-- The steps that stay keep their order. -/
theorem newSteps_sublist (held : List StepKey) (steps : List PlannedStep) :
    (newSteps held steps).Sublist steps := by
  induction steps generalizing held with
  | nil => exact List.Sublist.refl _
  | cons step rest ih =>
    by_cases h : step.key ∈ held
    · rw [newSteps_cons_of_mem h]
      exact (ih held).cons step
    · rw [newSteps_cons_of_not_mem h]
      exact (ih _).cons_cons step

/-- Only steps of the given identities are left out altogether. -/
theorem mem_of_not_mem_newSteps {held : List StepKey} {steps : List PlannedStep}
    {step : PlannedStep} (hstep : step ∈ steps)
    (hnot : step.key ∉ (newSteps held steps).map (·.key)) : step.key ∈ held := by
  induction steps generalizing held with
  | nil => cases hstep
  | cons first rest ih =>
    by_cases hfirst : first.key ∈ held
    · rw [newSteps_cons_of_mem hfirst] at hnot
      rcases List.mem_cons.1 hstep with rfl | hstep
      · exact hfirst
      · exact ih hstep hnot
    · rw [newSteps_cons_of_not_mem hfirst, List.map_cons, List.mem_cons, not_or] at hnot
      have hrest : step ∈ rest := (List.mem_cons.1 hstep).resolve_left fun heq =>
        hnot.1 (congrArg PlannedStep.key heq)
      exact (List.mem_cons.1 (ih hrest hnot.2)).resolve_left hnot.1

variable {offers : Step → BuildUnit → ForkSpec → List PlannedStep → Prop}

/-- The executions of a list of steps are those of its new steps. -/
theorem ExpandsAll.map_step_eq {guard : ForkGuard} {target : BuildUnit} {steps : List PlannedStep}
    {executions : List Execution} (h : ExpandsAll offers units guard target steps executions)
    {held : List StepKey} (hheld : ∀ key, guard.contains key = true ↔ key ∈ held) :
    executions.map (·.step) = (newSteps held steps).map (·.configure) := by
  induction steps generalizing guard executions held with
  | nil =>
    cases h
    rfl
  | cons first rest ih =>
    cases h with
    | held hfirst hrest =>
      rw [newSteps_cons_of_mem ((hheld _).1 hfirst)]
      exact ih hrest hheld
    | new hfirst hstep hrest =>
      have hnot : first.key ∉ held := fun hmem => by
        rw [(hheld _).2 hmem] at hfirst
        cases hfirst
      have hinsert : ∀ key, (guard.insert first.key).contains key = true ↔
          key ∈ first.key :: held := fun key => by simp [hheld]
      rw [newSteps_cons_of_not_mem hnot, List.map_cons, List.map_cons, hstep.step_eq,
        ih hrest hinsert]

end Planner

/-! ### Forked work of a unit -/

/-- What is forked for an execution itself on a unit. -/
def Execution.forkedOn (e : Execution) (id : String) : List Execution :=
  (e.forkedUnits.filter (·.unit = id)).flatMap (·.executions)

/-- The identities on the way to an execution and of what comes before on it. -/
def Execution.heldAfter (turns : List Turn) (place : Execution) : List StepKey :=
  turns.flatMap Turn.keys ++ [place.step.key]

namespace Planner

variable {p : Planner} {units : UnitGraph}
  {offers : Step → BuildUnit → ForkSpec → List PlannedStep → Prop}

section targets

variable {guard : ForkGuard} {parent : Step} {fork : ForkSpec} {targets : List BuildUnit}
  {forked : List (Forked Execution)}

/-- Nothing is forked on a unit that is not among those that work is forked on. -/
theorem ExpandsOn.filter_eq_nil (h : ExpandsOn offers units guard parent fork targets forked)
    {id : String} (hid : id ∉ targets.map (·.id)) : forked.filter (·.unit = id) = [] := by
  refine List.filter_eq_nil_iff.2 fun entry hentry heq => hid ?_
  rw [← of_decide_eq_true heq]
  exact h.sublist.subset (List.mem_map_of_mem hentry)

/-- Whether a unit is mentioned or nothing is left to do for it, what is forked on it are the steps
that are planned for it. -/
theorem ExpandsOn.exists_of_target (h : ExpandsOn offers units guard parent fork targets forked)
    (hnodup : (targets.map (·.id)).Nodup) {target : BuildUnit} (htarget : target ∈ targets) :
    ∃ steps, offers parent target fork steps ∧ ExpandsAll offers units guard target steps
      ((forked.filter (·.unit = target.id)).flatMap (·.executions)) := by
  induction targets generalizing forked with
  | nil => cases htarget
  | cons first rest ih =>
    obtain ⟨hfirst, hnodup⟩ := List.nodup_cons.1 hnodup
    rcases List.mem_cons.1 htarget with rfl | htarget
    · cases h with
      | idle hsteps hidle hrest =>
        rw [hrest.filter_eq_nil hfirst]
        exact ⟨_, hsteps, hidle⟩
      | busy hsteps hbusy _ hrest =>
        rw [List.filter_cons_of_pos (by simp), hrest.filter_eq_nil hfirst, List.flatMap_singleton]
        exact ⟨_, hsteps, hbusy⟩
    · have hne : first.id ≠ target.id := fun heq =>
        hfirst (List.mem_map.2 ⟨target, htarget, heq.symm⟩)
      cases h with
      | idle _ _ hrest => exact ih hrest hnodup htarget
      | busy _ _ _ hrest =>
        rw [List.filter_cons_of_neg (by simpa using hne)]
        exact ih hrest hnodup htarget

end targets

/-- Work is not forked twice on one unit for one step. -/
theorem nodup_forkTargets (units : UnitGraph) (unit : BuildUnit) (aggregator : Bool) :
    ((forkTargets units unit aggregator).map (·.id)).Nodup :=
  UnitGraph.nodup_of_pairwise_rank (List.pairwise_map.2 (pairwise_forkTargets aggregator))

end Planner

/-! ### Steps that are left out -/

namespace Surveying

/-- The mappings of the module for a survey. -/
def workOfApp : Mappings where
  lifecycle := "work"
  entries := [(⟨.before, "prepare"⟩, []),
    (⟨.during, "prepare"⟩, [work (alone "copy"), work (alone "sign")]), (⟨.after, "prepare"⟩, [])]

/-- The phase comes to copying and signing on the module. -/
theorem mappings_app : ((planner.forkedMappings (work survey).configure app "prepare" none).runWith
    {}).1 = .ok workOfApp := by
  cbv

/-- The way from the report to the survey. -/
def turn : Turn :=
  ⟨asked.configure, "root", [idle "copy"]⟩

/-- The survey that the report forks is reached in one turn. -/
theorem reaches_survey : reported.Reaches "root" [turn] "root" surveyed :=
  .fork (List.mem_singleton_self _) (.self _ _)

end Surveying

namespace Planner

/-- A step that forks a phase forks the steps of the mappings of each unit, in their order. It
leaves out those that stand on the way to it, itself included, and those that come before one on the
way in its list, on whatever unit that is. Of others that the mappings have twice it leaves out the
later one. -/
theorem forked_phase_keeps_new_steps (p : Planner) (units : UnitGraph) (unit : BuildUnit)
    (log : PlanningLog) (execution e : Execution) (hlog : p.Remembers log)
    (hpending : execution.forks = .pending)
    (h : ((p.expand units unit execution).runWith log).1 = .ok e)
    (turns : List Turn) (id : String) (place : Execution)
    (hplace : e.Reaches unit.id turns id place) (phase : String) (overlay : Option String)
    (hfork : place.step.descriptor.fork = some (.phase phase overlay)) :
    ∃ here : BuildUnit, here.id = id ∧ (here = unit ∨ here ∈ units.units) ∧
      ∀ target ∈ forkTargets units here place.step.isAggregating, ∃ m : Mappings,
        (∀ log', p.Remembers log' →
          ((p.forkedMappings place.step target phase overlay).runWith log').1 = .ok m) ∧
        (place.forkedOn target.id).map (·.step) =
          (newSteps (Execution.heldAfter turns place) m.steps).map (·.configure) ∧
        (newSteps (Execution.heldAfter turns place) m.steps).Sublist m.steps ∧
        ∀ step ∈ m.steps, step.key ∉ (place.forkedOn target.id).map (·.step.key) →
          step.key ∈ Execution.heldAfter turns place := by
  rw [expand, hpending] at h
  have hexpands :=
    ((ensures_expands offersMappings_forkedSteps).1 {} unit execution.step log hlog).2
    e h
  obtain ⟨guard, here, hid, hhere, hexpanded, hguard⟩ := hexpands.of_reaches rfl hplace
  refine ⟨here, hid, hhere, fun target htarget => ?_⟩
  obtain ⟨steps, hsteps, hall⟩ := (hexpanded.forkedUnits hfork).exists_of_target
    (nodup_forkTargets units here _) htarget
  obtain ⟨m, rfl, hm⟩ := hsteps phase overlay rfl
  have hheld : ∀ key, (guard.insert place.step.key).contains key = true ↔
      key ∈ Execution.heldAfter turns place := fun key => by
    rw [hguard, Execution.heldAfter, List.mem_append, List.mem_singleton]
    exact ⟨fun h => h.resolve_left (by simp [ForkGuard.contains]), .inr⟩
  have hforked := hall.map_step_eq hheld
  refine ⟨m, hm, hforked, newSteps_sublist _ _, fun step hstep hnot => ?_⟩
  refine mem_of_not_mem_newSteps hstep fun hmem => hnot ?_
  have hkeys := congrArg (List.map Step.key) hforked
  rw [List.map_map, List.map_map] at hkeys
  exact hkeys.symm ▸ hmem

/-- So it is with the survey that is forked for a report. The copy of the root is before it. -/
theorem survey_keeps_new_steps :
    ((Surveying.planner.expand Surveying.units Surveying.root
      ⟨Surveying.asked.configure, .pending⟩).runWith {}).1 = .ok Surveying.reported ∧
    Surveying.reported.Reaches "root" [Surveying.turn] "root" Surveying.surveyed ∧
    (Surveying.surveyed.forkedOn "app").map (·.step) =
      (newSteps [Surveying.report.key, (Surveying.alone "copy").key, Surveying.survey.key]
        Surveying.workOfApp.steps).map (·.configure) ∧
    newSteps [Surveying.report.key, (Surveying.alone "copy").key, Surveying.survey.key]
      Surveying.workOfApp.steps = [Surveying.work (Surveying.alone "sign")] := by
  have hreport := congrArg Prod.fst Surveying.expand_report
  refine ⟨hreport, Surveying.reaches_survey, ?_, rfl⟩
  obtain ⟨here, hid, hhere, hkeeps⟩ := forked_phase_keeps_new_steps Surveying.planner
    Surveying.units Surveying.root {} _ Surveying.reported (remembers_empty _) rfl hreport
    [Surveying.turn] "root" Surveying.surveyed Surveying.reaches_survey "prepare" none rfl
  have hroot : here = Surveying.root := by
    rcases hhere with rfl | hmem
    · rfl
    · rcases List.mem_pair.1 hmem with rfl | rfl
      · rfl
      · exact absurd hid (by decide)
  rw [hroot, show Surveying.surveyed.step.isAggregating = true from rfl,
    Surveying.targets_survey] at hkeeps
  obtain ⟨m, hm, hsteps, -⟩ := hkeeps Surveying.app (List.mem_cons_of_mem _ List.mem_cons_self)
  obtain rfl := Except.ok.inj ((hm {} (remembers_empty _)).symm.trans Surveying.mappings_app)
  exact hsteps

/-- A step may be left out that is neither on the way nor forked on the unit anywhere: the copy of
the root comes before the survey, and so the survey forks no copy on the module. -/
theorem planned_on_other_unit : ¬ ∀ (p : Planner) (units : UnitGraph) (unit : BuildUnit)
    (log : PlanningLog) (execution e : Execution), p.Remembers log → execution.forks = .pending →
    ((p.expand units unit execution).runWith log).1 = .ok e →
    ∀ turns id place, e.Reaches unit.id turns id place →
    ∀ phase overlay, place.step.descriptor.fork = some (.phase phase overlay) →
    ∀ entry ∈ place.forkedUnits, ∀ target ∈ units.units, target.id = entry.unit →
    ∀ m, ((p.forkedMappings place.step target phase overlay).runWith log).1 = .ok m →
    ∀ step ∈ m.steps, step.key ∉ entry.executions.map (·.step.key) →
      step.key ∈ turns.map (·.step.key) ++ [place.step.key] ∨
        step.key ∈ e.keysForkedOn target.id := by
  intro h
  have hreport := congrArg Prod.fst Surveying.expand_report
  have hcopy := h Surveying.planner Surveying.units Surveying.root {} _ Surveying.reported
    (remembers_empty _) rfl hreport _ _ _ Surveying.reaches_survey "prepare" none rfl
    _ (List.mem_singleton_self _) Surveying.app (List.mem_cons_of_mem _ List.mem_cons_self) rfl _
    Surveying.mappings_app (Surveying.work (Surveying.alone "copy")) List.mem_cons_self (by decide)
  revert hcopy
  decide +kernel

end Planner

end PhasedBuild
