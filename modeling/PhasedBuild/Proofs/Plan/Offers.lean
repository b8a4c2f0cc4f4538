import PhasedBuild.Proofs.Plan.Steps

/-!
# Forked steps come from the catalog

* `Planner.Offers`: the steps of a list are steps of the catalog.
* `Planner.offers_forkedSteps`: so are all that a step forks, whether a lifecycle, an overlay or the
  step itself names them.
-/

namespace PhasedBuild

/-- What the catalog resolves is in the catalog. -/
theorem Catalog.key_mem_of_resolve {c : Catalog} {coordinate : Coordinate} {goal : String}
    {descriptor : StepDescriptor} (h : c.resolve coordinate goal = .ok descriptor) :
    descriptor.key ∈ c.keys := by
  obtain ⟨plugin, hplugin, h⟩ := exists_of_bind_eq_ok h
  unfold Catalog.plugin at hplugin
  split at hplugin
  case h_2 => cases hplugin
  obtain rfl := Except.ok.inj hplugin
  split at h
  case h_2 => cases h
  obtain rfl := Except.ok.inj h
  refine List.mem_flatMap.2 ⟨_, Keyed.mem_of_find? ‹_›, ?_⟩
  exact List.mem_map_of_mem (List.mem_of_find?_eq_some ‹_›)

namespace Planner

variable {p : Planner}

/-- All steps of a list are steps of the catalog. -/
def Offers (p : Planner) (steps : List PlannedStep) : Prop :=
  ∀ step ∈ steps, step.key ∈ p.catalog.keys

/-- The step of a binding is a step of the catalog. -/
theorem key_mem_of_stepOf {source : StepSource} {binding : StepBinding} {step : PlannedStep}
    (h : p.stepOf source binding = .ok step) : step.key ∈ p.catalog.keys := by
  obtain ⟨descriptor, hdescriptor, h⟩ := exists_of_bind_eq_ok h
  obtain rfl := Except.ok.inj h
  exact Catalog.key_mem_of_resolve hdescriptor

/-- All steps of the mappings of a unit are steps of the catalog. -/
theorem offers_mappings (unit : BuildUnit) (raw : String) :
    Planning.Ensures (fun _ => True) (p.mappings unit raw) fun m => p.Offers m.steps :=
  ensures_steps_mappings (fun _ => True) raw
    (fun _ => Planning.Ensures.any.imp fun _ _ _ _ => trivial)
    fun _ _ _ hstep => key_mem_of_stepOf hstep

/-- Forked steps are steps of the catalog. -/
theorem offers_forkedSteps (parent : Step) (target : BuildUnit) (fork : ForkSpec) :
    Planning.Ensures (fun _ => True) (p.forkedSteps parent target fork) p.Offers :=
  ensures_forkedSteps (fun _ _ ⟨_, _, hdescriptor⟩ => Catalog.key_mem_of_resolve hdescriptor)
    (fun raw => offers_mappings target raw) (fun _ _ hstep => hstep) fork

end Planner

end PhasedBuild
