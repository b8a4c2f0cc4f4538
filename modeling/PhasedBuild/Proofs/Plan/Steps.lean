import PhasedBuild.Plan.Forks
import PhasedBuild.Proofs.Plan.Mappings
import PhasedBuild.Proofs.Results

/-!
# Properties of planned steps

What holds of every step of the planner is shown where the step is made: for the steps of a unit's
bindings, for those that an overlay adds, and for a change to a step.

* `Planner.ensures_steps_mappings`: the steps of mappings come from bindings.
* `Planner.ensures_applyOverlay`: an overlay adds steps and lays its configurations over those that
  are there.
* `Planner.ensures_forkedSteps`: forked steps come from mappings or are named.
-/

namespace PhasedBuild

/-! ### The steps of mappings -/

namespace Mappings

variable {kind other : PlannedStep → Prop} {m : Mappings}

/-- The steps of mappings are those of all their entries. -/
theorem forall_steps_iff :
    (∀ step ∈ m.steps, kind step) ↔ ∀ entry ∈ m.entries, ∀ step ∈ entry.2, kind step := by
  simp only [steps, List.mem_flatMap]
  constructor
  · intro h entry hentry step hstep
    exact h step ⟨entry, hentry, hstep⟩
  · rintro h step ⟨entry, hentry, hstep⟩
    exact h entry hentry step hstep

/-- A change of all steps may change their kind. -/
theorem forall_steps_mapSteps {change : PlannedStep → PlannedStep}
    (h : ∀ step ∈ m.steps, kind step) (hchange : ∀ step, kind step → other (change step)) :
    ∀ step ∈ (m.mapSteps change).steps, other step := by
  rw [forall_steps_iff] at h ⊢
  exact List.forall_mem_map.2 fun entry hentry => List.forall_mem_map.2 fun step hstep =>
    hchange step (h entry hentry step hstep)

/-- A change of the steps at one point must keep their kind. -/
theorem forall_steps_modifyPoint {point : PhaseRef} {change : List PlannedStep → List PlannedStep}
    (h : ∀ step ∈ m.steps, kind step)
    (hchange : ∀ steps, (∀ step ∈ steps, kind step) → ∀ step ∈ change steps, kind step) :
    ∀ step ∈ (m.modifyPoint point change).steps, kind step := by
  rw [forall_steps_iff] at h ⊢
  refine List.forall_mem_map.2 fun entry hentry => ?_
  split
  next => exact hchange entry.2 (h entry hentry)
  next => exact h entry hentry

end Mappings

namespace Planner

variable {p : Planner} {kind : PlannedStep → Prop}

/-! ### Bindings and overlays -/

/-- What is placed is the binding itself. -/
theorem ensures_place?_snd {bound : StepBinding → Prop} {binding : StepBinding} (h : bound binding)
    (order : PhaseOrder) (last : Nat) :
    Planning.Ensures (fun _ => True) (p.place? order last binding)
      fun placed => ∀ item, placed = some item → bound item.2 := by
  unfold place?
  split
  next => exact .pure fun _ hitem => nomatch hitem
  next =>
    refine .bind .any fun point _ => .pure ?_
    intro item hitem
    obtain ⟨position, -, rfl⟩ := Option.map_eq_some_iff.1 hitem
    exact h

/-- All steps of mappings are of a kind if those of the unit's bindings are. -/
theorem ensures_steps_mappings {unit : BuildUnit} (bound : StepBinding → Prop) (raw : String)
    (hbindings : ∀ lifecycle, Planning.Ensures (fun _ => True) (p.bindings unit lifecycle)
      fun bindings => ∀ binding ∈ bindings, bound binding)
    (hstep : ∀ binding step, bound binding → p.stepOf .lifecycle binding = .ok step → kind step) :
    Planning.Ensures (fun _ => True) (p.mappings unit raw)
      fun m => ∀ step ∈ m.steps, kind step := by
  refine .bind .any fun requested _ => ?_
  dsimp only
  split
  case h_2 => exact .throw_bind
  rw [pure_bind]
  split
  case h_2 => exact .throw_bind
  rw [pure_bind]
  split
  case h_2 => exact .throw_bind
  rw [pure_bind]
  refine (hbindings _).bind fun bindings hbound => ?_
  refine (Planning.Ensures.forall_mapM fun binding hbinding =>
    ensures_place?_snd (hbound binding hbinding) _ _).bind fun placed hplaced => ?_
  have hsorted : ∀ item ∈ (placed.filterMap id).mergeSort precedes, bound item.2 := by
    intro item hitem
    obtain ⟨found, hfound, rfl⟩ := List.mem_filterMap.1 (List.mem_mergeSort.1 hitem)
    exact hplaced _ hfound item rfl
  refine (ensures_mapM_stepOf unit _).bind fun steps hsteps => .pure ?_
  refine Mappings.forall_steps_iff.2 (List.forall_mem_map.2 fun entry _ =>
    List.forall_mem_map.2 ?_)
  intro step hmem
  obtain ⟨i, hi, rfl⟩ := List.getElem_of_mem (List.mem_of_mem_filter hmem)
  have hlt : i < ((placed.filterMap id).mergeSort precedes).length := by
    rw [hsteps.length_eq]
    exact hi
  obtain ⟨-, hof⟩ := hsteps.get hlt hi
  exact hstep _ _ (hsorted _ (List.getElem_mem hlt)) hof

section overlays

variable {parent : Step} {target : BuildUnit} {m : Mappings}

/-- Laying a phase leaves steps of a kind, if its own steps are of this kind and its configuration
keeps steps in it. -/
theorem ensures_overlayPoint {phase : OverlayPhase}
    (hadded : ∀ steps, p.overlaySteps parent target phase = .ok steps → ∀ step ∈ steps, kind step)
    (hlaid : ∀ configuration, phase.configuration = some configuration →
      ∀ step, kind step → kind (step.overlay configuration))
    (h : ∀ step ∈ m.steps, kind step) :
    Planning.Ensures (fun _ => True) (p.overlayPoint parent target m phase)
      fun m => ∀ step ∈ m.steps, kind step := by
  refine .bind .any fun point _ => ?_
  split
  case isFalse => exact .pure h
  split
  next => exact .throw _
  next added heq =>
    refine .pure (Mappings.forall_steps_modifyPoint h fun steps hsteps => ?_)
    refine List.forall_mem_map.2 fun step hmem => ?_
    have hstep : kind step :=
      (List.mem_append.1 hmem).elim (hsteps step) (hadded added heq step)
    split
    next configuration hconfiguration => exact hlaid configuration hconfiguration step hstep
    next => exact hstep

/-- All steps are of a kind after an overlay if those before it and those that it adds are, and if
its configurations do not matter. -/
theorem ensures_applyOverlay {id : String}
    (hadded : ∀ overlay, p.catalog.overlay parent.descriptor.plugin id = .ok overlay →
      ∀ phase ∈ overlay.phases, ∀ steps, p.overlaySteps parent target phase = .ok steps →
        ∀ step ∈ steps, kind step)
    (hlaid : ∀ overlay, p.catalog.overlay parent.descriptor.plugin id = .ok overlay →
      ∀ phase ∈ overlay.phases, ∀ configuration, phase.configuration = some configuration →
        ∀ step, kind step → kind (step.overlay configuration))
    (h : ∀ step ∈ m.steps, kind step) :
    Planning.Ensures (fun _ => True) (p.applyOverlay parent target m id)
      fun m => ∀ step ∈ m.steps, kind step := by
  unfold applyOverlay
  split
  next => exact .throw _
  next overlay heq =>
    exact .foldlM (fun m hm phase hphase =>
      ensures_overlayPoint (hadded overlay heq phase hphase) (hlaid overlay heq phase hphase) hm) h

end overlays

/-! ### Forked steps -/

section forks

variable {parent : Step} {target : BuildUnit}
  (hnamed : ∀ step : PlannedStep, step.source = .forked →
    (∃ plugin goal, p.catalog.resolve plugin goal = .ok step.descriptor) → kind step)

include hnamed

/-- The steps that a phase adds are of a kind if all forked steps of the catalog are. -/
theorem forall_overlaySteps {phase : OverlayPhase} {steps : List PlannedStep}
    (h : p.overlaySteps parent target phase = .ok steps) : ∀ step ∈ steps, kind step := by
  intro step hstep
  obtain ⟨⟨execution, goal⟩, -, h⟩ := exists_of_mapM_eq_ok h step hstep
  obtain ⟨⟨plugin, goal⟩, -, h⟩ := exists_of_bind_eq_ok h
  obtain ⟨descriptor, hdescriptor, h⟩ := exists_of_bind_eq_ok h
  obtain rfl := Except.ok.inj h
  exact hnamed _ rfl ⟨plugin, goal, hdescriptor⟩

/-- All forked steps are of a kind that does not depend on configurations if those are that come
from mappings, and if all forked steps of the catalog are. -/
theorem ensures_forkedSteps
    (hmappings : ∀ raw, Planning.Ensures (fun _ => True) (p.mappings target raw)
      fun m => ∀ step ∈ m.steps, kind { step with source := .forked })
    (hlaid : ∀ step configuration, kind step → kind (step.overlay configuration))
    (fork : ForkSpec) :
    Planning.Ensures (fun _ => True) (p.forkedSteps parent target fork)
      fun steps => ∀ step ∈ steps, kind step := by
  unfold forkedSteps
  split
  next phase overlay =>
    refine .mapError ((hmappings phase).bind fun m hm => ?_)
    have hforked : ∀ step ∈ (m.mapSteps fun step => { step with source := .forked }).steps,
        kind step := Mappings.forall_steps_mapSteps hm fun _ hstep => hstep
    dsimp only
    split
    next id =>
      have hoverlaid : Planning.Ensures (fun _ => True) (p.applyOverlay parent target _ id)
          fun m => ∀ step ∈ m.steps, kind step :=
        ensures_applyOverlay (fun _ _ _ _ _ hadded => forall_overlaySteps hnamed hadded)
          (fun _ _ _ _ configuration _ step => hlaid step configuration) hforked
      exact hoverlaid.bind fun m hm => .pure hm
    next =>
      rw [pure_bind]
      exact .pure hforked
  next goal =>
    split
    next => exact .throw _
    next descriptor hdescriptor =>
      refine .pure fun step hstep => ?_
      obtain rfl := List.mem_singleton.1 hstep
      exact hnamed _ rfl ⟨_, goal, hdescriptor⟩

end forks

end Planner

end PhasedBuild
