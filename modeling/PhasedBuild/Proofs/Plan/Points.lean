import PhasedBuild.Proofs.Lifecycle.Standing
import PhasedBuild.Proofs.Plan.Steps

/-!
# The execution points that steps are at

A binding is planned at its execution point, and it is the order of the lifecycle that says whether
there is such a point. The order has the points of all declared phases. It also has every point that
a link leads to, even if no phase of that name is declared, so a binding to such a point is planned
as well.

* `Lifecycle.LinksTo`: a declared phase has a link to an execution point.
* `PhaseOrder.mem_points_iff`: the points of an order.
* `Planner.steps_are_at_points_of_order`: which bindings are planned, and where their steps are.
-/

namespace PhasedBuild

/-! ### Points of an order -/

/-- A link of a declared phase leads to an execution point. -/
def Lifecycle.LinksTo (l : Lifecycle) (point : PhaseRef) : Prop :=
  ∃ phase ∈ l.allPhases, ∃ link ∈ phase.links, link.target = .point point

/-- All links to phases of the same unit lead to declared phases. -/
def Lifecycle.LinksAreDeclared (l : Lifecycle) : Prop :=
  ∀ phase ∈ l.allPhases, ∀ link ∈ phase.links, ∀ name,
    link.pointer = .phase name → name ∈ l.phaseNames

/-- A link leads to the point after or before the phase that it names. -/
theorem Link.target_eq_point_iff {link : Link} {point : PhaseRef} :
    link.target = .point point ↔
      link.pointer = .phase point.phase ∧
        point.side = match link.kind with
          | .after => .after
          | .before => .before := by
  obtain ⟨kind, pointer⟩ := link
  obtain ⟨side, name⟩ := point
  cases pointer with
  | phase other => cases kind <;> simp [target, Node.after, Node.before, eq_comm, and_comm]
  | children other => simp [target]
  | dependencies scope other => simp [target]

/-- Links lead to the point before a phase or after it. -/
theorem Lifecycle.LinksTo.ne_during {l : Lifecycle} {point : PhaseRef} (h : l.LinksTo point) :
    point.side ≠ .during := by
  obtain ⟨phase, -, link, -, htarget⟩ := h
  rw [(Link.target_eq_point_iff.1 htarget).2]
  cases link.kind <;> simp

/-- If all links lead to declared phases, so does each of them. -/
theorem Lifecycle.LinksTo.mem_phaseNames {l : Lifecycle} {point : PhaseRef} (h : l.LinksTo point)
    (hdeclared : l.LinksAreDeclared) : point.phase ∈ l.phaseNames := by
  obtain ⟨phase, hphase, link, hlink, htarget⟩ := h
  exact hdeclared phase hphase link hlink _ (Link.target_eq_point_iff.1 htarget).1

/-- The points of an order are those of declared phases and those that links lead to. -/
theorem PhaseOrder.mem_points_iff {l : Lifecycle} {order : PhaseOrder}
    (h : ofPhases l.phases = .ok order) (point : PhaseRef) :
    point ∈ order.points ↔ point.phase ∈ l.phaseNames ∨ l.LinksTo point := by
  obtain ⟨nodes, hnodes, hpoints⟩ := exists_of_ofPhases h
  have hperm := PhaseGraph.perm_of_executionOrder (PhaseGraph.isClosed_ofPhases l.phases) hnodes
  have hnode : point ∈ order.points ↔ .point point ∈ (PhaseGraph.ofPhases l.phases).nodes := by
    rw [hpoints, ← hperm.mem_iff, List.mem_filterMap]
    constructor
    · rintro ⟨node, hmem, hpoint⟩
      cases node with
      | point other => exact Option.some.inj hpoint ▸ hmem
      | children other => cases hpoint
      | dependencies scope other => cases hpoint
    · exact fun hmem => ⟨_, hmem, rfl⟩
  rw [hnode, PhaseGraph.mem_nodes_ofPhases_iff]
  refine or_congr ?_ .rfl
  simp [Lifecycle.phaseNames, Phase.mem_pointsOf_iff]

namespace Planner

variable {p : Planner} {unit : BuildUnit} {raw : String} {request : Request}

/-- A text names a lifecycle of the registry, with the order of its phases. -/
theorem Requests.ofPhases_eq (h : p.Requests unit raw request) (hsound : p.registry.Sound) :
    request.lifecycle ∈ p.registry.lifecycles ∧
      PhaseOrder.ofPhases request.lifecycle.phases = .ok request.order := by
  obtain ⟨i, -, hi⟩ := LifecycleRegistry.lifecycleOf_eq_ok_iff.1 h.lifecycle
  have hmem := List.mem_of_getElem? hi
  obtain ⟨order, horder, heq⟩ := hsound.order_eq hmem
  obtain rfl := Except.ok.inj (heq.symm.trans h.order)
  exact ⟨hmem, horder⟩

/-- The step of a binding has the phase of the binding. -/
theorem phase_of_stepOf {source : StepSource} {binding : StepBinding} {step : PlannedStep}
    (h : p.stepOf source binding = .ok step) : step.phase = binding.phase := by
  obtain ⟨descriptor, -, h⟩ := exists_of_bind_eq_ok h
  obtain rfl := Except.ok.inj h
  rfl

section arranged

variable {sorted : List (Nat × StepBinding)} {m : Mappings}

/-- Every step is that of a placed binding. -/
theorem Arranges.exists_placed (h : p.Arranges request sorted m) {step : PlannedStep}
    (hstep : step ∈ m.steps) : ∃ placed ∈ sorted, p.stepOf .lifecycle placed.2 = .ok step := by
  obtain ⟨i, hi, rfl⟩ := List.getElem_of_mem hstep
  have hlt : i < sorted.length := h.steps.length_eq ▸ hi
  exact ⟨sorted[i], List.getElem_mem hlt, h.steps.get hlt hi⟩

/-- Every placed binding has a step. -/
theorem Arranges.exists_step (h : p.Arranges request sorted m) {placed : Nat × StepBinding}
    (hplaced : placed ∈ sorted) : ∃ step ∈ m.steps, p.stepOf .lifecycle placed.2 = .ok step := by
  obtain ⟨i, hi, rfl⟩ := List.getElem_of_mem hplaced
  have hlt : i < m.steps.length := h.steps.length_eq ▸ hi
  exact ⟨m.steps[i], List.getElem_mem hlt, h.steps.get hi hlt⟩

/-- A step is at a point of the order. -/
theorem Arranges.exists_point (h : p.Arranges request sorted m) {step : PlannedStep}
    (hstep : step ∈ m.steps) :
    ∃ text, step.phase = some text ∧ ∃ i ≤ request.last,
      request.order.points[i]? = some (p.registry.resolve text) := by
  obtain ⟨placed, hplaced, hof⟩ := h.exists_placed hstep
  obtain ⟨hle, text, htext, hpoint⟩ := h.own placed hplaced
  exact ⟨text, (phase_of_stepOf hof).trans htext, _, hle, hpoint⟩

/-- A binding is planned exactly if its execution point has a place up to the last one. -/
theorem Arranges.exists_step_iff (h : p.Arranges request sorted m)
    (horder : PhaseOrder.ofPhases request.lifecycle.phases = .ok request.order)
    {binding : StepBinding} (hbinding : binding ∈ request.bindings) {text : String}
    (htext : binding.phase = some text) :
    (∃ step ∈ m.steps, p.stepOf .lifecycle binding = .ok step) ↔
      ∃ i ≤ request.last, request.order.points[i]? = some (p.registry.resolve text) := by
  constructor
  · rintro ⟨step, hstep, hof⟩
    obtain ⟨other, hother, hpoint⟩ := h.exists_point hstep
    rw [phase_of_stepOf hof, htext] at hother
    exact Option.some.inj hother ▸ hpoint
  · rintro ⟨i, hle, hpoint⟩
    have hplaced : p.placed? request binding = some (i, binding) :=
      placed?_eq_some_iff.2
        ⟨rfl, hle, text, htext, (PhaseOrder.position?_eq_some_iff horder).2 hpoint⟩
    have hmem : (i, binding) ∈ sorted :=
      h.stable.perm.mem_iff.2 (List.mem_filterMap.2 ⟨binding, hbinding, hplaced⟩)
    have hstep := h.exists_step hmem
    exact hstep

end arranged

/-- A planner whose registry has taken or refused any lifecycles plans a binding exactly if its
execution point is one of the order, up to the last one of the request. The points of the order are
those of the phases that the lifecycle declares and those that links lead to. So steps at a phase
itself, and all steps if the links lead to declared phases only, are at declared phases. -/
theorem steps_are_at_points_of_order (attempts : List Lifecycle) (p : Planner)
    (hregistry : p.registry = LifecycleRegistry.after {} attempts) (unit : BuildUnit)
    (raw : String) (log : PlanningLog) (m : Mappings) (hlog : p.Remembers log)
    (h : ((p.mappings unit raw).runWith log).1 = .ok m) :
    ∃ request, p.Requests unit raw request ∧ request.lifecycle ∈ p.registry.lifecycles ∧
      m.lifecycle = request.lifecycle.id ∧
      (∀ point, point ∈ request.order.points ↔
        point.phase ∈ request.lifecycle.phaseNames ∨ request.lifecycle.LinksTo point) ∧
      (∀ binding ∈ request.bindings, ∀ text, binding.phase = some text →
        ((∃ step ∈ m.steps, p.stepOf .lifecycle binding = .ok step) ↔
          ∃ i ≤ request.last, request.order.points[i]? = some (p.registry.resolve text))) ∧
      ∀ step ∈ m.steps, ∃ text, step.phase = some text ∧
        p.registry.resolve text ∈ request.order.points ∧
        ((p.registry.resolve text).side = .during ∨ request.lifecycle.LinksAreDeclared →
          (p.registry.resolve text).phase ∈ request.lifecycle.phaseNames) := by
  obtain ⟨request, steps, hrequest, hsteps, rfl⟩ := (ensures_mappings p unit raw log hlog).2 m h
  have harranges := arranges_of_forall₂ hrequest hsteps
  have hsound : p.registry.Sound := hregistry ▸ LifecycleRegistry.sound_after attempts
  obtain ⟨hmem, horder⟩ := hrequest.ofPhases_eq hsound
  have hpoints := PhaseOrder.mem_points_iff horder
  refine ⟨request, hrequest, hmem, rfl, hpoints,
    fun binding hbinding text htext => harranges.exists_step_iff horder hbinding htext, ?_⟩
  intro step hstep
  obtain ⟨text, htext, i, -, hpoint⟩ := harranges.exists_point hstep
  have hin := List.mem_of_getElem? hpoint
  refine ⟨text, htext, hin, fun hcase => ?_⟩
  rcases (hpoints _).1 hin with hdeclared | hlinked
  · exact hdeclared
  · rcases hcase with hduring | hlinks
    · exact absurd hduring hlinked.ne_during
    · exact hlinked.mem_phaseNames hlinks

end Planner

/-! ### A link that leads nowhere -/

namespace Compiling

/-- A phase that comes after one that is not declared. -/
def lifecycle : Lifecycle where
  id := "work"
  phases := [{ name := "compile", links := [⟨.after, .phase "generate"⟩] }, { name := "test" }]

/-- What plans are made from. -/
def planner : Planner where
  registry := LifecycleRegistry.after {} [lifecycle]
  catalog := Publishing.planner.catalog

/-- A unit with a goal at the point that the link leads to. -/
def unit : BuildUnit where
  id := "app"
  plugins := [{
    coordinate := Publishing.plugin
    executions := [{ id := "copy", phase := some "after:generate", goals := ["copy"] }] }]

/-- What is done up to the point after compiling. -/
def compiled : Mappings where
  lifecycle := "work"
  entries := [(⟨.after, "generate"⟩, [Publishing.step "copy" "after:generate"]),
    (⟨.before, "compile"⟩, []), (⟨.during, "compile"⟩, []), (⟨.after, "compile"⟩, [])]

/-- The planner knows this lifecycle only. -/
theorem lifecycles_eq : planner.registry.lifecycles = [lifecycle] := by
  cbv

/-- The goal at the point that only a link leads to is planned. -/
theorem mappings_eq : ((planner.mappings unit "compile").runWith {}).1 = .ok compiled := by
  cbv

/-- The text names the point after the phase that is not declared. -/
theorem resolve_eq : planner.registry.resolve "after:generate" = ⟨.after, "generate"⟩ := by
  cbv

end Compiling

namespace Planner

/-- The goal is planned at a point of the order, which a link leads to. -/
theorem steps_of_compile : ∃ request,
    Compiling.planner.Requests Compiling.unit "compile" request ∧
      request.lifecycle.LinksTo ⟨.after, "generate"⟩ ∧
      ⟨.after, "generate"⟩ ∈ request.order.points := by
  obtain ⟨request, hrequest, hmem, -, hpoints, -, hsteps⟩ :=
    steps_are_at_points_of_order [Compiling.lifecycle] Compiling.planner rfl Compiling.unit
      "compile" {} Compiling.compiled (remembers_empty _) Compiling.mappings_eq
  obtain ⟨text, htext, hpoint, -⟩ :=
    hsteps (Publishing.step "copy" "after:generate") List.mem_cons_self
  obtain rfl := Option.some.inj htext
  rw [Compiling.resolve_eq] at hpoint
  rw [Compiling.lifecycles_eq, List.mem_singleton] at hmem
  have hundeclared : "generate" ∉ request.lifecycle.phaseNames := by
    rw [hmem]
    decide
  exact ⟨request, hrequest, ((hpoints _).1 hpoint).resolve_left hundeclared, hpoint⟩

/-- A step may be at a phase that its lifecycle does not declare. -/
theorem steps_at_undeclared_phase : ¬ ∀ (attempts : List Lifecycle) (p : Planner),
    p.registry = LifecycleRegistry.after {} attempts → ∀ (unit : BuildUnit) (raw : String)
      (m : Mappings), ((p.mappings unit raw).runWith {}).1 = .ok m →
      ∀ lifecycle ∈ p.registry.lifecycles, m.lifecycle = lifecycle.id →
        ∀ step ∈ m.steps, ∃ text, step.phase = some text ∧
          (p.registry.resolve text).phase ∈ lifecycle.phaseNames := by
  intro h
  have hmem : Compiling.lifecycle ∈ Compiling.planner.registry.lifecycles := by
    rw [Compiling.lifecycles_eq]
    exact List.mem_singleton_self _
  obtain ⟨text, htext, hphase⟩ := h [Compiling.lifecycle] Compiling.planner rfl Compiling.unit
    "compile" Compiling.compiled Compiling.mappings_eq Compiling.lifecycle hmem rfl
    (Publishing.step "copy" "after:generate") List.mem_cons_self
  obtain rfl := Option.some.inj htext
  rw [Compiling.resolve_eq] at hphase
  exact absurd hphase (by decide)

end Planner

end PhasedBuild
