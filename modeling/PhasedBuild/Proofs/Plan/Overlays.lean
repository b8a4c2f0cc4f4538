import PhasedBuild.Proofs.Configuration
import PhasedBuild.Proofs.Configuration.Grouping
import PhasedBuild.Proofs.Plan.Points
import PhasedBuild.Proofs.Plan.Suppression
import PhasedBuild.Proofs.Results

/-!
# Overlays

An overlay is laid over mappings phase by phase. Several of its phases may name one execution point,
in different words, and each of them also reshapes what those before it have added there.

* `Planner.Overlaid`: what mappings are after an overlay, given point by point and not phase by
  phase.
* `Planner.layPhase`: what one phase of an overlay comes to.
* `Planner.overlays_only_add`: laying an overlay over mappings succeeds with those that `Overlaid`
  describes and with no others. Phases whose execution point is not in the mappings do not matter.
-/

namespace PhasedBuild

/-! ### What an overlay leaves -/

/-- The goals that a phase of an overlay lists, with the executions that list them. -/
def OverlayPhase.listed (phase : OverlayPhase) : List (OverlayExecution × String) :=
  phase.executions.flatMap fun execution => execution.goals.map (execution, ·)

/-- A step with the configurations of phases over what had been declared for it, that of the last
phase being the dominant one. Nothing else of the step changes. -/
def PlannedStep.under (step : PlannedStep) (phases : List OverlayPhase) : PlannedStep :=
  { step with
    declared := ConfigNode.stack
      ((phases.filterMap (·.configuration)).reverse ++ step.declared.toList) }

namespace Planner

variable (p : Planner) (parent : Step) (target : BuildUnit)

/-- A step is that of a goal which an overlay lists for a phase: it is looked up in the plugin of
the parent or in the one that the goal names, and it runs as the execution that the parent runs as.
-/
structure AddedFor (phase : OverlayPhase) (listed : OverlayExecution × String)
    (step : PlannedStep) : Prop where
  executionId_eq : step.executionId = parent.executionId
  phase_eq : step.phase = some phase.id
  source_eq : step.source = .forked
  lookup : ∃ plugin goal, overlayGoal parent.descriptor.plugin listed.2 = .ok (plugin, goal) ∧
    p.catalog.resolve plugin goal = .ok step.descriptor ∧
    step.declared = ConfigNode.mergeOptions listed.1.configuration
      (target.configurationFor plugin parent.executionId)

/-- What phases that all name one execution point add to it: one step for each listed goal, in the
order of the phases. A step is under the configurations of its own phase and of those after it. -/
inductive Adds : List OverlayPhase → List PlannedStep → Prop where
  | nil : Adds [] []
  | cons {phase : OverlayPhase} {rest : List OverlayPhase} {added later : List PlannedStep}
      (hadded : List.Forall₂ (p.AddedFor parent target phase) phase.listed added)
      (hlater : Adds rest later) :
      Adds (phase :: rest) (added.map (·.under (phase :: rest)) ++ later)

/-- An execution point with its steps, before and after phases that all name it: the steps that were
there come first and in their order, under the configurations of all these phases. -/
structure OverlaidPoint (phases : List OverlayPhase) (entry entry' : PhaseRef × List PlannedStep) :
    Prop where
  point_eq : entry'.1 = entry.1
  steps_eq : ∃ added, p.Adds parent target phases added ∧
    entry'.2 = entry.2.map (·.under phases) ++ added

/-- The phases that name an execution point. -/
def phasesAt (phases : List OverlayPhase) (point : PhaseRef) : List OverlayPhase :=
  phases.filter fun phase => p.registry.resolve phase.id = point

/-- Mappings before and after phases of an overlay: they have the same execution points, each of
which is changed by the phases that name it. -/
@[mk_iff]
structure Overlaid (phases : List OverlayPhase) (m m' : Mappings) : Prop where
  lifecycle_eq : m'.lifecycle = m.lifecycle
  entries : List.Forall₂
    (fun entry entry' => p.OverlaidPoint parent target (p.phasesAt phases entry.1) entry entry')
    m.entries m'.entries

/-- The phases whose execution point mappings have. -/
def mappedPhases (m : Mappings) (phases : List OverlayPhase) : List OverlayPhase :=
  phases.filter fun phase => m.hasPoint (p.registry.resolve phase.id)

end Planner

/-! ### Configurations of phases -/

/-- A single configuration stacked is itself. -/
theorem ConfigNode.stack_toList (node : Option ConfigNode) : stack node.toList = node := by
  simpa [stack] using stack_toList_append node []

namespace PlannedStep

variable (step : PlannedStep)

/-- A step is put under phases one after the other. -/
theorem under_append (first later : List OverlayPhase) :
    step.under (first ++ later) = (step.under first).under later := by
  simp only [under, List.filterMap_append, List.reverse_append, List.append_assoc,
    ConfigNode.stack_append, ConfigNode.stack_toList]

@[simp] theorem under_nil : step.under [] = step := by
  rw [under]
  simp [ConfigNode.stack_toList]

/-- A phase without a configuration leaves a step as it is. -/
theorem under_of_configuration_eq_none {phase : OverlayPhase} (h : phase.configuration = none) :
    step.under [phase] = step := by
  rw [under]
  simp [h, ConfigNode.stack_toList]

/-- A phase with a configuration lays it over what had been declared for a step. -/
theorem under_of_configuration_eq_some {phase : OverlayPhase} {configuration : ConfigNode}
    (h : phase.configuration = some configuration) :
    step.under [phase] = step.overlay configuration := by
  rw [under]
  simp [h, ConfigNode.stack, ConfigNode.stack_toList, ConfigNode.mergeOptions, overlay]

end PlannedStep

namespace Planner

variable {p : Planner} {parent : Step} {target : BuildUnit}

/-! ### Added steps -/

/-- The step that is made of a listed goal is exactly the one that is added for it. -/
theorem overlayStep_eq_ok_iff {phase : OverlayPhase} {listed : OverlayExecution × String}
    {step : PlannedStep} :
    p.overlayStep parent target phase listed.1 listed.2 = .ok step ↔
      p.AddedFor parent target phase listed step := by
  constructor
  · intro h
    obtain ⟨⟨plugin, goal⟩, hgoal, h⟩ := exists_of_bind_eq_ok h
    obtain ⟨descriptor, hdescriptor, h⟩ := exists_of_bind_eq_ok h
    obtain rfl := Except.ok.inj h
    exact ⟨rfl, rfl, rfl, plugin, goal, hgoal, hdescriptor, rfl⟩
  · intro h
    obtain ⟨plugin, goal, hgoal, hdescriptor, hdeclared⟩ := h.lookup
    obtain ⟨descriptor, executionId, phaseId, source, declared⟩ := step
    obtain rfl := h.executionId_eq
    obtain rfl := h.phase_eq
    obtain rfl := h.source_eq
    obtain rfl := hdeclared
    rw [overlayStep, hgoal]
    show (p.catalog.resolve plugin goal >>= _) = _
    rw [hdescriptor]
    rfl

/-- The steps that are made of a phase are those that are added for its goals, in their order. -/
theorem overlaySteps_eq_ok_iff {phase : OverlayPhase} {added : List PlannedStep} :
    p.overlaySteps parent target phase = .ok added ↔
      List.Forall₂ (p.AddedFor parent target phase) phase.listed added := by
  have hstep : p.AddedFor parent target phase = fun listed step =>
      p.overlayStep parent target phase listed.1 listed.2 = .ok step := by
    funext listed step
    exact propext overlayStep_eq_ok_iff.symm
  rw [hstep]
  exact mapM_eq_ok_iff

/-- Phases at an execution point may be laid on it one after the other. -/
theorem overlaidPoint_cons_iff {phase : OverlayPhase} {rest : List OverlayPhase} {point : PhaseRef}
    {steps : List PlannedStep} {entry' : PhaseRef × List PlannedStep} :
    p.OverlaidPoint parent target (phase :: rest) (point, steps) entry' ↔
      ∃ added, p.overlaySteps parent target phase = .ok added ∧
        p.OverlaidPoint parent target rest (point, (steps ++ added).map (·.under [phase]))
          entry' := by
  have hunder (steps : List PlannedStep) :
      steps.map (·.under (phase :: rest)) = (steps.map (·.under [phase])).map (·.under rest) := by
    rw [List.map_map]
    exact List.map_congr_left fun step _ => step.under_append [phase] rest
  constructor
  · rintro ⟨hpoint, _, hadds, hsteps⟩
    cases hadds with
    | cons hadded hlater =>
      refine ⟨_, overlaySteps_eq_ok_iff.2 hadded, hpoint, _, hlater, ?_⟩
      rw [hsteps, hunder, hunder, List.map_append, List.map_append, List.append_assoc]
  · rintro ⟨added, hadded, hpoint, later, hlater, hsteps⟩
    refine ⟨hpoint, _, .cons (overlaySteps_eq_ok_iff.1 hadded) hlater, ?_⟩
    rw [hsteps, hunder, hunder, List.map_append, List.map_append, List.append_assoc]

/-- Without phases an execution point keeps its steps. -/
theorem overlaidPoint_nil_iff {entry entry' : PhaseRef × List PlannedStep} :
    p.OverlaidPoint parent target [] entry entry' ↔ entry = entry' := by
  constructor
  · rintro ⟨hpoint, _, ⟨⟩, hsteps⟩
    exact Prod.ext hpoint.symm (by simpa using hsteps.symm)
  · rintro rfl
    exact ⟨rfl, [], .nil, by simp⟩

/-! ### One phase -/

variable (p parent target) in
/-- What laying one phase of an overlay over mappings comes to, whatever the log. -/
def layPhase (m : Mappings) (phase : OverlayPhase) : Except BuildError Mappings :=
  let point := p.registry.resolve phase.id
  if m.hasPoint point then
    (p.overlaySteps parent target phase).map fun added =>
      m.modifyPoint point fun steps => (steps ++ added).map (·.under [phase])
  else .ok m

/-- What laying a phase comes to does not depend on the log, as long as the log remembers nothing
wrong. -/
theorem runWith_overlayPoint {log : PlanningLog} (hlog : p.Remembers log) (m : Mappings)
    (phase : OverlayPhase) :
    ∃ log', (p.overlayPoint parent target m phase).runWith log =
      (p.layPhase parent target m phase, log') ∧ p.Remembers log' := by
  obtain ⟨log', hresolve, hlog'⟩ := runWith_resolveRef hlog phase.id
  refine ⟨log', ?_, hlog'⟩
  rw [overlayPoint, Planning.runWith_bind, hresolve, layPhase]
  dsimp only
  split
  next =>
    cases p.overlaySteps parent target phase with
    | error e => rfl
    | ok added =>
      refine congrArg (fun change => (Except.ok (m.modifyPoint _ change), log')) ?_
      funext steps
      refine List.map_congr_left fun step _ => ?_
      split
      next configuration h => exact (step.under_of_configuration_eq_some h).symm
      next h => exact (step.under_of_configuration_eq_none h).symm
  next => rfl

/-- What laying phases one after the other comes to does not depend on the log either. -/
theorem runWith_foldlM_overlayPoint {log : PlanningLog} (hlog : p.Remembers log)
    (phases : List OverlayPhase) (m : Mappings) :
    ((phases.foldlM (p.overlayPoint parent target) m).runWith log).1 =
      phases.foldlM (p.layPhase parent target) m := by
  induction phases generalizing log m with
  | nil => rfl
  | cons phase rest ih =>
    obtain ⟨log', hphase, hlog'⟩ := @runWith_overlayPoint p parent target log hlog m phase
    rw [List.foldlM_cons, List.foldlM_cons, Planning.runWith_bind, hphase]
    cases p.layPhase parent target m phase with
    | error e => rfl
    | ok m => exact ih hlog' m

/-! ### Phases of points that are not there -/

/-- Changing the steps at one execution point changes none of the points. -/
theorem hasPoint_modifyPoint (m : Mappings) (point other : PhaseRef)
    (change : List PlannedStep → List PlannedStep) :
    (m.modifyPoint point change).hasPoint other = m.hasPoint other := by
  simp only [Mappings.hasPoint, Mappings.modifyPoint, List.any_map]
  congr 1
  funext entry
  dsimp only [Function.comp_apply]
  split <;> rfl

/-- Laying a phase changes none of the points. -/
theorem hasPoint_of_layPhase {m m' : Mappings} {phase : OverlayPhase}
    (h : p.layPhase parent target m phase = .ok m') (point : PhaseRef) :
    m'.hasPoint point = m.hasPoint point := by
  rw [layPhase] at h
  split at h
  next =>
    obtain ⟨added, -, rfl⟩ := map_eq_ok_iff.1 h
    exact hasPoint_modifyPoint m _ point _
  next =>
    obtain rfl := Except.ok.inj h
    rfl

/-- Phases whose execution point the mappings do not have may be left out. -/
theorem foldlM_layPhase_mappedPhases (phases : List OverlayPhase) (m : Mappings) :
    (p.mappedPhases m phases).foldlM (p.layPhase parent target) m =
      phases.foldlM (p.layPhase parent target) m := by
  induction phases generalizing m with
  | nil => rfl
  | cons phase rest ih =>
    rw [mappedPhases, List.filter_cons, List.foldlM_cons]
    split
    next hpoint =>
      rw [List.foldlM_cons]
      cases hphase : p.layPhase parent target m phase with
      | error e => rfl
      | ok m' =>
        have hmapped : p.mappedPhases m rest = p.mappedPhases m' rest := by
          simp only [mappedPhases, hasPoint_of_layPhase hphase]
        show (p.mappedPhases m rest).foldlM (p.layPhase parent target) m' = _
        rw [hmapped]
        exact ih m'
    next hpoint =>
      have hphase : p.layPhase parent target m phase = .ok m := if_neg hpoint
      rw [hphase]
      exact ih m

/-! ### All phases -/

/-- A first phase that names the execution point is the first of those that do. -/
theorem phasesAt_cons_of_eq {phase : OverlayPhase} {point : PhaseRef}
    (h : p.registry.resolve phase.id = point) (rest : List OverlayPhase) :
    p.phasesAt (phase :: rest) point = phase :: p.phasesAt rest point :=
  List.filter_cons_of_pos (by simpa using h)

/-- A phase that names another execution point does not matter. -/
theorem phasesAt_cons_of_ne {phase : OverlayPhase} {point : PhaseRef}
    (h : p.registry.resolve phase.id ≠ point) (rest : List OverlayPhase) :
    p.phasesAt (phase :: rest) point = p.phasesAt rest point :=
  List.filter_cons_of_neg (by simpa using h)

/-- Relations that agree on the elements of a list relate it to the same lists. -/
theorem forall₂_congr_of_mem {α β : Type} {R S : α → β → Prop} {l : List α} {l' : List β}
    (h : ∀ a ∈ l, ∀ b, R a b ↔ S a b) : List.Forall₂ R l l' ↔ List.Forall₂ S l l' := by
  induction l generalizing l' with
  | nil => simp
  | cons a rest ih =>
    obtain ⟨ha, hrest⟩ := List.forall_mem_cons.1 h
    simp only [List.forall₂_cons_left_iff, ha, ih hrest]

section cons

variable {phase : OverlayPhase} {rest : List OverlayPhase} {m m' : Mappings}

/-- Without phases mappings stay as they are. -/
theorem overlaid_nil_iff : p.Overlaid parent target [] m m' ↔ m = m' := by
  have hentries : List.Forall₂ (fun entry entry' =>
      p.OverlaidPoint parent target (p.phasesAt [] entry.1) entry entry') m.entries m'.entries ↔
      m.entries = m'.entries := by
    rw [← List.forall₂_eq_eq_eq]
    exact forall₂_congr_of_mem fun entry _ entry' => overlaidPoint_nil_iff
  rw [overlaid_iff, hentries]
  cases m
  cases m'
  simp [eq_comm]

/-- A phase whose execution point is not there leaves everything to the others. -/
theorem overlaid_cons_iff_of_unmapped (h : ¬ m.hasPoint (p.registry.resolve phase.id)) :
    p.Overlaid parent target (phase :: rest) m m' ↔ p.Overlaid parent target rest m m' := by
  rw [overlaid_iff, overlaid_iff]
  refine and_congr .rfl (forall₂_congr_of_mem fun entry hentry entry' => ?_)
  have hne : p.registry.resolve phase.id ≠ entry.1 := fun heq =>
    h (List.any_eq_true.2 ⟨entry, hentry, by simpa using heq.symm⟩)
  rw [phasesAt_cons_of_ne hne]

/-- A phase whose steps are known may be laid on first. -/
theorem overlaid_cons_iff_of_overlaySteps {added : List PlannedStep}
    (h : p.overlaySteps parent target phase = .ok added) :
    p.Overlaid parent target (phase :: rest) m m' ↔ p.Overlaid parent target rest
      (m.modifyPoint (p.registry.resolve phase.id) fun steps =>
        (steps ++ added).map (·.under [phase])) m' := by
  rw [overlaid_iff, overlaid_iff, Mappings.modifyPoint, List.forall₂_map_left_iff]
  refine and_congr .rfl (forall₂_congr_of_mem fun entry _ entry' => ?_)
  obtain ⟨point, steps⟩ := entry
  by_cases hpoint : point = p.registry.resolve phase.id
  · subst hpoint
    simp [phasesAt_cons_of_eq, overlaidPoint_cons_iff, h]
  · simp [phasesAt_cons_of_ne (Ne.symm hpoint), hpoint]

/-- Mappings can be overlaid only if the steps of every phase that they have a point for can be
told. -/
theorem Overlaid.exists_overlaySteps (h : p.Overlaid parent target (phase :: rest) m m')
    (hpoint : m.hasPoint (p.registry.resolve phase.id)) :
    ∃ added, p.overlaySteps parent target phase = .ok added := by
  obtain ⟨⟨point, steps⟩, hentry, heq⟩ := List.any_eq_true.1 hpoint
  obtain rfl : point = p.registry.resolve phase.id := by simpa using heq
  obtain ⟨i, hi, hget⟩ := List.getElem_of_mem hentry
  have hat := h.entries.get hi (h.entries.length_eq ▸ hi)
  simp only [List.get_eq_getElem, hget, phasesAt_cons_of_eq] at hat
  obtain ⟨added, hadded, -⟩ := overlaidPoint_cons_iff.1 hat
  exact ⟨added, hadded⟩

/-- An overlay may be laid on phase by phase. -/
theorem overlaid_cons_iff : p.Overlaid parent target (phase :: rest) m m' ↔
    ∃ between, p.layPhase parent target m phase = .ok between ∧
      p.Overlaid parent target rest between m' := by
  by_cases hpoint : m.hasPoint (p.registry.resolve phase.id)
  · have hphase : p.layPhase parent target m phase = (p.overlaySteps parent target phase).map _ :=
      if_pos hpoint
    simp only [hphase, map_eq_ok_iff]
    constructor
    · intro h
      obtain ⟨added, hadded⟩ := h.exists_overlaySteps hpoint
      exact ⟨_, ⟨added, hadded, rfl⟩, (overlaid_cons_iff_of_overlaySteps hadded).1 h⟩
    · rintro ⟨_, ⟨added, hadded, rfl⟩, h⟩
      exact (overlaid_cons_iff_of_overlaySteps hadded).2 h
  · have hphase : p.layPhase parent target m phase = .ok m := if_neg hpoint
    simp [hphase, overlaid_cons_iff_of_unmapped hpoint]

end cons

/-- What all phases of an overlay come to, one after the other. -/
theorem foldlM_layPhase_eq_ok_iff {phases : List OverlayPhase} {m m' : Mappings} :
    phases.foldlM (p.layPhase parent target) m = .ok m' ↔
      p.Overlaid parent target phases m m' := by
  induction phases generalizing m with
  | nil =>
    rw [overlaid_nil_iff]
    exact ⟨Except.ok.inj, congrArg Except.ok⟩
  | cons phase rest ih =>
    rw [List.foldlM_cons, overlaid_cons_iff]
    constructor
    · intro h
      obtain ⟨between, hphase, h⟩ := exists_of_bind_eq_ok h
      exact ⟨between, hphase, ih.1 h⟩
    · rintro ⟨between, hphase, h⟩
      rw [hphase]
      exact ih.2 h

/-- Laying an overlay is laying its phases one after the other. -/
theorem runWith_applyOverlay {log : PlanningLog} (hlog : p.Remembers log) {id : String}
    {overlay : Overlay} (h : p.catalog.overlay parent.descriptor.plugin id = .ok overlay)
    (m : Mappings) :
    ((p.applyOverlay parent target m id).runWith log).1 =
      overlay.phases.foldlM (p.layPhase parent target) m := by
  rw [applyOverlay, h]
  exact runWith_foldlM_overlayPoint hlog overlay.phases m

/-- A point that no phase names keeps its steps as they are. -/
theorem Overlaid.getElem?_of_unnamed {phases : List OverlayPhase} {m m' : Mappings}
    (h : p.Overlaid parent target phases m m') {i : Nat} {entry : PhaseRef × List PlannedStep}
    (hentry : m.entries[i]? = some entry)
    (hunnamed : ∀ phase ∈ phases, p.registry.resolve phase.id ≠ entry.1) :
    m'.entries[i]? = some entry := by
  obtain ⟨hi, rfl⟩ := List.getElem?_eq_some_iff.1 hentry
  have hi' : i < m'.entries.length := h.entries.length_eq ▸ hi
  have hat := h.entries.get hi hi'
  have hnone : p.phasesAt phases m.entries[i].1 = [] := by
    simpa [phasesAt, List.filter_eq_nil_iff] using hunnamed
  simp only [List.get_eq_getElem, hnone] at hat
  rw [overlaidPoint_nil_iff.1 hat]
  exact List.getElem?_eq_getElem hi'

end Planner

namespace Planner

/-- The mappings of a request have each execution point once, so a phase of an overlay changes the
steps of one point only. -/
theorem nodup_points_of_mappings {p : Planner} (hsound : p.registry.Sound) {log : PlanningLog}
    (hlog : p.Remembers log) {unit : BuildUnit} {raw : String} {m : Mappings}
    (h : ((p.mappings unit raw).runWith log).1 = .ok m) : (m.entries.map (·.1)).Nodup := by
  obtain ⟨request, steps, hrequest, hsteps, rfl⟩ := (ensures_mappings p unit raw log hlog).2 m h
  rw [(arranges_of_forall₂ hrequest hsteps).points]
  obtain ⟨-, horder⟩ := hrequest.ofPhases_eq hsound
  exact (PhaseOrder.nodup_points horder).sublist (List.take_sublist _ _)

end Planner

/-! ### An overlay that names a phase in two ways -/

namespace Surveying

/-- A configuration of one value. -/
def option (name value : String) : ConfigNode where
  name := ConfigNode.rootName
  children := [{ name, value := some value }]

/-- The phase of the work by its name, a phase that the work does not come to and has no such goal,
and the phase of the work by an older name. -/
def docs : Overlay where
  id := "docs"
  phases := [
    { id := "prepare"
      executions := [{ goals := ["sign"] }]
      configuration := some (option "mode" "docs") },
    { id := "publish", executions := [{ goals := ["lost"] }] },
    { id := "generate"
      executions := [{ goals := ["copy"] }]
      configuration := some (option "depth" "full") }]

/-- A planner that knows the overlay and the older name. -/
def documenting : Planner where
  registry.aliases := [("generate", ⟨.during, "prepare"⟩)]
  catalog.plugins := [("org.acme:acme-plugin", {
    coordinate := plugin
    goals := [report, alone "copy", alone "sign"]
    overlays := [docs] })]

/-- A step that the overlay adds. -/
def addedBy (phase goal : String) : PlannedStep where
  descriptor := alone goal
  executionId := "default-cli"
  phase := some phase
  source := .forked

/-- The work of the module with the overlay on it. -/
def documented : Mappings where
  lifecycle := "work"
  entries := [(⟨.before, "prepare"⟩, []),
    (⟨.during, "prepare"⟩,
      [(work (alone "copy")).under docs.phases, (work (alone "sign")).under docs.phases,
        (addedBy "prepare" "sign").under docs.phases,
        (addedBy "generate" "copy").under (docs.phases.drop 2)]),
    (⟨.after, "prepare"⟩, [])]

/-- The two phases that name the point of the work add a step each, and the phase that the work does
not come to has no part in it. -/
theorem applyOverlay_docs :
    ((documenting.applyOverlay asked.configure app workOfApp "docs").runWith {}).1 =
      .ok documented := by
  cbv

end Surveying

namespace Planner

/-- An overlay of the parent's plugin is laid over mappings. They keep their lifecycle, their
execution points and all their steps, in the same order. A point gets one more step for each goal
that is listed for it, behind those that are there. The steps of a point get the configurations of
the phases that name it, each over what the one before it has left; otherwise they stay as they are,
and so do those of points that no phase names. It takes the goals of the phases at these points for
this to succeed, and those only: phases at other points change neither the result nor the error. -/
theorem overlays_only_add (p : Planner) (parent : Step) (target : BuildUnit) (m : Mappings)
    (id : String) (log : PlanningLog) (hlog : p.Remembers log) :
    (∀ m', ((p.applyOverlay parent target m id).runWith log).1 = .ok m' ↔
      ∃ overlay, p.catalog.overlay parent.descriptor.plugin id = .ok overlay ∧
        p.Overlaid parent target overlay.phases m m') ∧
    ∀ overlay, p.catalog.overlay parent.descriptor.plugin id = .ok overlay →
      (∀ m', ((p.applyOverlay parent target m id).runWith log).1 = .ok m' →
        ∀ (i : Nat) entry, m.entries[i]? = some entry →
          (∀ phase ∈ overlay.phases, p.registry.resolve phase.id ≠ entry.1) →
            m'.entries[i]? = some entry) ∧
      ((p.applyOverlay parent target m id).runWith log).1 =
        (((p.mappedPhases m overlay.phases).foldlM (p.overlayPoint parent target) m).runWith
          log).1 := by
  have happly {overlay : Overlay}
      (h : p.catalog.overlay parent.descriptor.plugin id = .ok overlay) :
      ((p.applyOverlay parent target m id).runWith log).1 =
        overlay.phases.foldlM (p.layPhase parent target) m :=
    runWith_applyOverlay hlog h m
  refine ⟨fun m' => ?_, fun overlay hoverlay => ⟨?_, ?_⟩⟩
  · constructor
    · intro h
      cases hoverlay : p.catalog.overlay parent.descriptor.plugin id with
      | error e =>
        rw [applyOverlay, hoverlay] at h
        cases h
      | ok overlay =>
        rw [happly hoverlay] at h
        exact ⟨overlay, rfl, foldlM_layPhase_eq_ok_iff.1 h⟩
    · rintro ⟨overlay, hoverlay, h⟩
      rw [happly hoverlay]
      exact foldlM_layPhase_eq_ok_iff.2 h
  · intro m' h i entry hentry hunnamed
    rw [happly hoverlay, foldlM_layPhase_eq_ok_iff] at h
    exact h.getElem?_of_unnamed hentry hunnamed
  · rw [happly hoverlay, runWith_foldlM_overlayPoint hlog, foldlM_layPhase_mappedPhases]

/-- So it is with the work of the module. The step that the overlay adds first is under the
configuration that it lays on last, and the goal that does not exist is not missed. -/
theorem docs_only_adds :
    Surveying.documenting.Remembers {} ∧
    ((Surveying.documenting.applyOverlay Surveying.asked.configure Surveying.app
      Surveying.workOfApp "docs").runWith {}).1 = .ok Surveying.documented ∧
    Surveying.documenting.Overlaid Surveying.asked.configure Surveying.app Surveying.docs.phases
      Surveying.workOfApp Surveying.documented ∧
    Surveying.documented.entries[2]? = some (⟨.after, "prepare"⟩, []) := by
  have hoverlay : Surveying.documenting.catalog.overlay
      Surveying.asked.configure.descriptor.plugin "docs" = .ok Surveying.docs := by
    cbv
  have hpoint : Surveying.workOfApp.entries[2]? = some (⟨.after, "prepare"⟩, []) := rfl
  have hunnamed : ∀ phase ∈ Surveying.docs.phases,
      Surveying.documenting.registry.resolve phase.id ≠ ⟨.after, "prepare"⟩ := by
    decide
  obtain ⟨honly, hframe⟩ := overlays_only_add Surveying.documenting Surveying.asked.configure
    Surveying.app Surveying.workOfApp "docs" {} (remembers_empty _)
  obtain ⟨overlay, hfound, hoverlaid⟩ := (honly _).1 Surveying.applyOverlay_docs
  obtain rfl := Except.ok.inj (hoverlay.symm.trans hfound)
  exact ⟨remembers_empty _, Surveying.applyOverlay_docs, hoverlaid,
    (hframe _ hoverlay).1 _ Surveying.applyOverlay_docs _ _ hpoint hunnamed⟩

end Planner

end PhasedBuild
