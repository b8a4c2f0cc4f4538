import PhasedBuild.Plan.Tasks
import PhasedBuild.Proofs.Plan.Suppression

/-!
# One planner asked many times

A planner is asked for plans and for mappings, one time after the other. The execution points that
it reads on the way are kept for later calls: those of the requests, of the bindings and of the
phases of overlays, at every depth of forked work and also when the call ends with an error.

* `Planner.determined_expansions`, `Planner.determined_plan`: what a call comes to is the same from
  all logs whose execution points are those of the registry, and it leaves such a log behind.
* `Planner.earlier_calls_do_not_matter`: so it comes to what it comes to on a new planner.
-/

namespace PhasedBuild

/-- Changing errors leaves planning determined. -/
theorem Planning.Determined.mapError {α : Type} {invariant : PlanningLog → Prop} {x : Planning α}
    {change : BuildError → BuildError} (hx : x.Determined invariant) :
    (Planning.mapError change x).Determined invariant := by
  obtain ⟨result, hx⟩ := hx
  refine ⟨result.mapError change, fun log hlog => ?_⟩
  obtain ⟨hresult, hlog'⟩ := hx log hlog
  rw [runWith_mapError, hresult]
  exact ⟨rfl, hlog'⟩

namespace Planner

variable {p : Planner} {units : UnitGraph}

/-! ### Forked work -/

/-- What a step forks on a unit does not depend on the log. -/
theorem determined_forkedSteps (parent : Step) (target : BuildUnit) (fork : ForkSpec) :
    (p.forkedSteps parent target fork).Determined p.Remembers := by
  cases fork with
  | phase phase overlay =>
    rw [forkedSteps_phase, map_eq_pure_bind]
    exact ((determined_forkedMappings parent target phase overlay).bind fun _ => .pure _).mapError
  | goal goal =>
    unfold forkedSteps
    dsimp only
    split
    next => exact .throw _
    next => exact .pure _

variable (p units) in
/-- The expansion of forked work does not depend on what has been planned before. -/
theorem determined_expansions :
    (∀ guard unit step, (p.expandStep units guard unit step).Determined p.Remembers) ∧
    (∀ guard parent fork targets,
      (p.expandTargets units guard parent fork targets).Determined p.Remembers) ∧
    (∀ guard target steps, (p.expandSteps units guard target steps).Determined p.Remembers) := by
  -- the induction goes the way of the expansion
  refine Planner.expandStep.mutual_induct p units _ _ _ ?_ ?_ ?_ ?_ ?_ ?_ ?_
  · intro guard unit step hfork
    rw [expandStep, hfork]
    exact .pure _
  · intro guard unit step fork hfork ih
    rw [expandStep, hfork]
    exact ih.bind fun _ => .pure _
  · intro guard parent fork
    rw [expandTargets]
    exact .pure _
  · intro guard parent fork target rest ihsteps ihrest
    rw [expandTargets]
    exact (determined_forkedSteps parent target fork).bind fun steps =>
      (ihsteps steps).bind fun _ => ihrest.bind fun _ => .pure _
  · intro guard target
    rw [expandSteps]
    exact .pure _
  · intro guard target step rest hnew ihstep ihrest
    rw [expandSteps, dif_pos hnew]
    exact ihstep.bind fun _ => ihrest.bind fun _ => .pure _
  · intro guard target step rest hheld ihrest
    rw [expandSteps, dif_neg hheld]
    exact ihrest

/-- What an execution is expanded to does not depend on the log. -/
theorem determined_expand (unit : BuildUnit) (execution : Execution) :
    (p.expand units unit execution).Determined p.Remembers := by
  unfold expand
  split
  next => exact (p.determined_expansions units).1 _ _ _
  next => exact .pure _
  next => exact .pure _

/-! ### Plans -/

/-- The steps of a task do not depend on the log. -/
theorem determined_taskSteps (unit : BuildUnit) (task : Task) :
    (p.taskSteps unit task).Determined p.Remembers := by
  cases task with
  | goal goal =>
    unfold taskSteps
    dsimp only
    split
    next => exact .pure _
    next => exact .throw _
  | phase phase => exact (determined_mappings unit phase).bind fun _ => .pure _

/-- The plan of a unit does not depend on the log. -/
theorem determined_plan (unit : BuildUnit) (tasks : List Task) :
    (p.plan units unit tasks).Determined p.Remembers := by
  have hsteps : (tasks.mapM (p.taskSteps unit)).Determined p.Remembers :=
    .mapM fun task _ => determined_taskSteps unit task
  refine hsteps.bind fun steps => ?_
  have hexecutions : (steps.flatten.mapM fun step =>
      p.expand units unit { step := step.configure }).Determined p.Remembers :=
    .mapM fun _ _ => determined_expand unit _
  exact hexecutions.mapError.bind fun _ => .pure _

end Planner

/-! ### Calls -/

/-- What a planner can be asked for. -/
inductive PlanningCall where
  /-- The plan of a unit of a build for tasks. -/
  | plan (units : UnitGraph) (unit : BuildUnit) (tasks : List Task)
  /-- The mappings of a unit for a phase. -/
  | mappings (unit : BuildUnit) (phase : String)

/-- What a call comes to if it does not fail. -/
def PlanningCall.Answer : PlanningCall → Type
  | .plan _ _ _ => ExecutionPlan
  | .mappings _ _ => Mappings

namespace Planner

variable (p : Planner)

/-- The computation of a call. -/
def answer : (call : PlanningCall) → Planning call.Answer
  | .plan units unit tasks => p.plan units unit tasks
  | .mappings unit phase => p.mappings unit phase

/-- The log that calls leave behind, one after the other, on a new planner. -/
def logAfter (calls : List PlanningCall) : PlanningLog :=
  calls.foldl (fun log call => ((p.answer call).runWith log).2) {}

variable {p}

/-- The answer to a call does not depend on the log. -/
theorem determined_answer (call : PlanningCall) : (p.answer call).Determined p.Remembers := by
  cases call with
  | plan units unit tasks => exact determined_plan unit tasks
  | mappings unit phase => exact determined_mappings unit phase

/-- Whatever has been asked before, the planner remembers nothing wrong. -/
theorem remembers_logAfter (p : Planner) (calls : List PlanningCall) :
    p.Remembers (p.logAfter calls) := by
  unfold logAfter
  apply List.foldlRecOn (motive := p.Remembers)
  · exact p.remembers_empty
  · intro log hlog call _
    obtain ⟨_, hcall⟩ := determined_answer (p := p) call
    exact (hcall log hlog).2

/-- After any calls, whatever units and tasks they were about and whether they failed or not, the
execution points that are kept are those of the registry, and the next call comes to the result or
to the error to which it comes on a new planner. -/
theorem earlier_calls_do_not_matter (p : Planner) (earlier : List PlanningCall)
    (next : PlanningCall) :
    p.Remembers (p.logAfter earlier) ∧
      ((p.answer next).runWith (p.logAfter earlier)).1 = ((p.answer next).runWith {}).1 := by
  have hlog := p.remembers_logAfter earlier
  obtain ⟨result, hnext⟩ := determined_answer (p := p) next
  refine ⟨hlog, ?_⟩
  rw [(hnext _ hlog).1, (hnext _ p.remembers_empty).1]

/-- A call that fails leaves the phase behind that it was about. -/
example :
    ((Surveying.planner.answer (.mappings Surveying.app "publish")).runWith {}).1.isOk = false ∧
    (Surveying.planner.logAfter [.mappings Surveying.app "publish"]).cache.size = 1 := by
  cbv

end Planner

end PhasedBuild
