import PhasedBuild.Build.Coordinator
import PhasedBuild.Run.Rules

/-!
# What executions contribute to the state of a unit

A step that runs to its end is noted in the state on which it has been run. Steps that are forked
are run on states of their own, so of all that is done in the build of a unit only the steps of its
own plan are noted in its state.

* `Action.finished`: the steps of a unit's own plan that run to their end in the course of actions.
* `Executor.ownSteps`: the steps of executions that the settings of the build allow.
* `Executor.rules_contributes`: what is noted is what is finished, and that is what there is in the
  executions, up to the first one that fails.
* `Executor.work_contributes`: so it is with the work of lanes.
-/

namespace PhasedBuild

/-- Whether a step has run to its end, from the event that tells so. -/
def Event.verdict? : Event → Option Bool
  | .ofStep _ _ .succeeded => some true
  | .ofStep _ _ (.failed _) => some false
  | _ => none

/-- The runner leaves it to others to note the steps that ran to their end. -/
def Runner.KeepsExecuted (r : Runner) : Prop :=
  ∀ history call, (r history call).2.executed = call.state.executed

namespace Action

/-- How the steps that are run come out, one after the other. -/
def verdicts (actions : List Action) : List Bool :=
  (events actions).filterMap Event.verdict?

/-- The steps with a number of forks around them that run to their end. -/
def finishedAt (depth : Nat) (actions : List Action) : List String :=
  ((calls actions).zip (verdicts actions)).filterMap fun (call, succeeded) =>
    if succeeded && call.depth == depth then some call.step.display else none

/-- The steps of a unit's own plan that run to their end. -/
abbrev finished (actions : List Action) : List String :=
  finishedAt 0 actions

/-- Every step that is run comes out in one way, and has at least a number of forks around it. -/
structure Deep (depth : Nat) (actions : List Action) : Prop where
  length_eq : (calls actions).length = (verdicts actions).length
  le_depth : ∀ call ∈ calls actions, depth ≤ call.depth

@[simp] theorem verdicts_append (actions others : List Action) :
    verdicts (actions ++ others) = verdicts actions ++ verdicts others := by
  simp [verdicts]

variable {depth : Nat} {actions others : List Action}

namespace Deep

/-- Where nothing is run, everything is deep. -/
theorem nil : Deep depth [] :=
  ⟨rfl, fun _ hcall => absurd hcall List.not_mem_nil⟩

/-- Actions are deep if both of their parts are. -/
theorem append (h : Deep depth actions) (hothers : Deep depth others) :
    Deep depth (actions ++ others) where
  length_eq := by simp [h.length_eq, hothers.length_eq]
  le_depth := by
    intro call hcall
    rw [calls_append, List.mem_append] at hcall
    exact hcall.elim (h.le_depth call) (hothers.le_depth call)

/-- What is deep stays so for a smaller number of forks. -/
theorem of_lt {deeper : Nat} (h : Deep deeper actions) (hle : depth ≤ deeper) :
    Deep depth actions :=
  ⟨h.length_eq, fun call hcall => Nat.le_trans hle (h.le_depth call hcall)⟩

/-- What neither runs a step nor tells of the end of one. -/
theorem of_nil (hcalls : calls actions = []) (hverdicts : verdicts actions = []) :
    Deep depth actions := by
  refine ⟨by rw [hcalls, hverdicts]; rfl, fun call hcall => ?_⟩
  rw [hcalls] at hcall
  cases hcall

/-- A report that tells of no step that has come to its end is deep. -/
theorem reported {event : Event} (h : event.verdict? = none) : Deep depth [.reported event] :=
  of_nil rfl (by simp [verdicts, events, event?, h])

end Deep

/-- The steps that run to their end are those of the first actions and then those of the others. The
first ones must be deep, for each verdict is matched to a step that is run. -/
theorem finishedAt_append (h : Deep depth actions) (level : Nat) (others : List Action) :
    finishedAt level (actions ++ others) = finishedAt level actions ++ finishedAt level others := by
  rw [finishedAt, calls_append, verdicts_append, List.zip_append h.length_eq, List.filterMap_append]
  rfl

/-- Where all steps have more forks around them, none of those with fewer is finished. -/
theorem finishedAt_of_deep (h : Deep (depth + 1) actions) : finishedAt depth actions = [] := by
  refine List.filterMap_eq_nil_iff.2 ?_
  rintro ⟨call, succeeded⟩ hmem
  have hlt := h.le_depth call (List.of_mem_zip hmem).1
  have hne : call.depth ≠ depth := by omega
  simp [hne]

/-- Events that tell of no step do not matter. -/
theorem finishedAt_of_quiet (hcalls : calls others = []) (hverdicts : verdicts others = []) :
    finishedAt depth (actions ++ others) = finishedAt depth actions := by
  simp [finishedAt, hcalls, hverdicts]

end Action

open PhasedBuild.Action

/-! ### What an outcome adds -/

/-- Work that starts at a progress adds actions with deeper steps only, and the state does not show
any of them. -/
structure Progress.Confines (depth : Nat) (added : List Action) (p q : Progress) : Prop where
  actions : q.actions = p.actions ++ added
  deep : Deep (depth + 1) added
  executed : q.state.executed = p.state.executed

/-- Work on executions adds actions, and the state shows which of the steps of the executions have
run to their end: the first ones of those that there are, and all of them if the work comes to its
end. -/
structure Outcome.Contributes (depth : Nat) (own : List String) (added : List Action)
    (p : Progress) (o : Outcome) : Prop where
  actions : o.2.actions = p.actions ++ added
  deep : Deep depth added
  executed : o.2.state.executed = p.state.executed ++ finishedAt depth added
  isPrefix : finishedAt depth added <+: own
  eq_of_ok : o.1 = .ok () → finishedAt depth added = own

section adding

variable {depth : Nat} {own : List String} {added more : List Action} {p q r : Progress}
  {o : Outcome}

namespace Progress.Confines

/-- Doing nothing shows nothing. -/
theorem refl : p.Confines depth [] p :=
  ⟨(List.append_nil _).symm, .nil, rfl⟩

/-- Work in two parts is confined if both of its parts are. -/
theorem trans (h : p.Confines depth added q) (h' : q.Confines depth more r) :
    p.Confines depth (added ++ more) r where
  actions := by rw [h'.actions, h.actions, List.append_assoc]
  deep := h.deep.append h'.deep
  executed := h'.executed.trans h.executed

/-- A report that tells of no step that has come to its end shows nothing. -/
theorem report {event : Event} (h : event.verdict? = none) :
    p.Confines depth [.reported event] (p.report event) :=
  ⟨rfl, .reported h, rfl⟩

end Progress.Confines

namespace Outcome.Contributes

/-- Nothing is noted of what a step does before it is run. -/
theorem prepend (h : p.Confines depth added q) (ho : Contributes depth own more q o) :
    Contributes depth own (added ++ more) p o where
  actions := by rw [ho.actions, h.actions, List.append_assoc]
  deep := (h.deep.of_lt (Nat.le_succ depth)).append ho.deep
  executed := by
    rw [ho.executed, h.executed, finishedAt_append h.deep, finishedAt_of_deep h.deep,
      List.nil_append]
  isPrefix := by
    rw [finishedAt_append h.deep, finishedAt_of_deep h.deep, List.nil_append]
    exact ho.isPrefix
  eq_of_ok := by
    rw [finishedAt_append h.deep, finishedAt_of_deep h.deep, List.nil_append]
    exact ho.eq_of_ok

/-- Nothing is noted of an execution that stops before its step. -/
theorem of_confines {result : Except BuildError Unit} (h : p.Confines depth added q)
    (hown : result = .ok () → own = []) : Contributes depth own added p (result, q) where
  actions := h.actions
  deep := h.deep.of_lt (Nat.le_succ depth)
  executed := by
    rw [finishedAt_of_deep h.deep, List.append_nil]
    exact h.executed
  isPrefix := by
    rw [finishedAt_of_deep h.deep]
    exact List.nil_prefix
  eq_of_ok := by
    intro hok
    rw [finishedAt_of_deep h.deep, hown hok]

/-- Executions that come to their end go before others. -/
theorem append {rest : List String} {state : UnitState}
    (h : Contributes depth own added p (.ok (), q))
    (ho : Contributes depth rest more { q with state } o)
    (hstate : state.executed = q.state.executed) :
    Contributes depth (own ++ rest) (added ++ more) p o where
  actions := by
    have hq : q.actions = p.actions ++ added := h.actions
    rw [ho.actions, hq, List.append_assoc]
  deep := h.deep.append ho.deep
  executed := by
    have hq : q.state.executed = p.state.executed ++ finishedAt depth added := h.executed
    rw [ho.executed, hstate, hq, finishedAt_append h.deep, List.append_assoc]
  isPrefix := by
    rw [finishedAt_append h.deep, h.eq_of_ok rfl]
    exact (List.prefix_append_right_inj own).2 ho.isPrefix
  eq_of_ok := by
    intro hok
    rw [finishedAt_append h.deep, h.eq_of_ok rfl, ho.eq_of_ok hok]

end Outcome.Contributes

end adding

namespace Executor

variable {x : Executor} {lane : Nat} {unit : BuildUnit} {depth : Nat} {step : Step} {p : Progress}

/-- The steps of executions that the settings of the build allow, forked ones apart. -/
def ownSteps (x : Executor) (executions : List Execution) : List String :=
  (executions.filter fun execution => x.unmet? execution.step = none).map (·.step.display)

/-! ### One step -/

/-- A step that is performed runs as deep as it stands. -/
theorem Performs.deep {result : Except BuildError Unit} {added : List Action}
    (h : x.Performs lane unit depth step p result added) : Deep depth added := by
  have hrequested : Deep depth ((x.ensured lane unit step p).requests.map .requested) :=
    .of_nil (calls_requested _) (by simp [verdicts])
  cases h with
  | unresolved _ => exact hrequested
  | failed _ _ => exact hrequested.append ⟨rfl, List.forall_mem_singleton.2 (Nat.le_refl depth)⟩
  | succeeded _ _ => exact hrequested.append ⟨rfl, List.forall_mem_singleton.2 (Nat.le_refl depth)⟩

/-- What is noted of a step that comes to a result. -/
def noted (step : String) : Except BuildError Unit → List String
  | .ok () => [step]
  | .error _ => []

/-- A step that is performed has run to its end exactly if its result says so. -/
theorem Performs.finishedAt_eq {result : Except BuildError Unit} {added : List Action}
    (h : x.Performs lane unit depth step p result added) :
    finishedAt depth added = noted step.display result := by
  have hrequested : Deep (depth + 1) ((x.ensured lane unit step p).requests.map .requested) :=
    .of_nil (calls_requested _) (by simp [verdicts])
  cases h with
  | unresolved _ => exact finishedAt_of_deep hrequested
  | failed _ _ =>
    rw [finishedAt_append hrequested, finishedAt_of_deep hrequested]
    rfl
  | succeeded _ _ =>
    rw [finishedAt_append hrequested, finishedAt_of_deep hrequested]
    simp [finishedAt, calls, verdicts, events, event?, List.filterMap_cons, call?, Event.verdict?,
      callOf, noted]

/-- A step is noted in the state exactly if it has succeeded, as long as the runner notes none. -/
theorem executed_concludeStep (owner : Owner) (call : StepCall) (p : Progress)
    {answer : Except (List String) Unit × UnitState} (h : answer.2.executed = p.state.executed) :
    (concludeStep unit owner step call p answer).2.state.executed =
      p.state.executed ++ noted owner.step (concludeStep unit owner step call p answer).1 := by
  rcases answer with ⟨_ | _, state⟩
  · exact h.trans (List.append_nil _).symm
  · exact congrArg (· ++ [owner.step]) h

section noting

variable (hrunner : x.runner.KeepsExecuted) (owner : Owner)
include hrunner

/-- Running a step notes it exactly if it succeeds. -/
theorem executed_runStep (p : Progress) :
    (x.runStep unit owner depth step p).2.state.executed =
      p.state.executed ++ noted owner.step (x.runStep unit owner depth step p).1 :=
  executed_concludeStep owner _ _ (hrunner _ _)

/-- A step whose needs cannot be resolved is not noted. -/
theorem executed_prepareStep (p : Progress) :
    (x.prepareStep unit owner depth step p).2.state.executed =
      p.state.executed ++ noted owner.step (x.prepareStep unit owner depth step p).1 := by
  unfold prepareStep
  simp only
  split
  next => exact executed_runStep hrunner owner _
  next => exact (List.append_nil _).symm

/-- A step is noted if it runs to its end, and nothing else is. -/
theorem executed_performStep (p : Progress) :
    (x.performStep lane unit depth step p).2.state.executed =
      p.state.executed ++ noted step.display (x.performStep lane unit depth step p).1 :=
  executed_prepareStep hrunner ⟨lane, unit.id, step.display⟩ _

/-- Performing a step contributes the step. -/
theorem contributes_performStep (p : Progress) :
    ∃ added, (x.performStep lane unit depth step p).Contributes depth [step.display] added p := by
  obtain ⟨added, hactions, hperforms⟩ := x.performs_performStep lane unit depth step p
  have hacquiring : Deep (depth + 1) (x.acquiring lane unit step) :=
    .of_nil (by simp) (by simp [verdicts])
  have hreleasing : Deep (depth + 1) (x.releasing lane unit step) :=
    .of_nil (by simp) (by simp [verdicts])
  have hfinished : finishedAt depth
      (x.acquiring lane unit step ++ added ++ x.releasing lane unit step) =
        noted step.display (x.performStep lane unit depth step p).1 := by
    rw [List.append_assoc, finishedAt_append hacquiring, finishedAt_of_deep hacquiring,
      finishedAt_append hperforms.deep, finishedAt_of_deep hreleasing, hperforms.finishedAt_eq,
      List.append_nil, List.nil_append]
  refine ⟨_, hactions, ?_, ?_, ?_, ?_⟩
  · have hlt := Nat.le_succ depth
    exact ((hacquiring.of_lt hlt).append hperforms.deep).append (hreleasing.of_lt hlt)
  · rw [hfinished]
    exact executed_performStep hrunner p
  · rw [hfinished]
    cases (x.performStep lane unit depth step p).1 with
    | error _ => exact List.nil_prefix
    | ok _ => exact List.prefix_rfl
  · intro hok
    rw [hfinished, hok]
    rfl

end noting

/-! ### All executions -/

/-- The steps of a list are those of its first execution and those of the others. -/
theorem ownSteps_cons (x : Executor) (execution : Execution) (rest : List Execution) :
    x.ownSteps (execution :: rest) = x.ownSteps [execution] ++ x.ownSteps rest := by
  unfold ownSteps
  rw [← List.map_append, ← List.filter_append]
  rfl

/-- A step that the settings do not allow is none of the own steps. -/
theorem ownSteps_of_unmet {execution : Execution} {fault : Fault}
    (h : x.unmet? execution.step = some fault) : x.ownSteps [execution] = [] := by
  simp [ownSteps, h]

/-- A step that the settings allow is one of the own steps, whatever it forks. -/
theorem ownSteps_of_met {execution : Execution} (h : x.unmet? execution.step = none) :
    x.ownSteps [execution] = [execution.step.display] := by
  simp [ownSteps, h]

/-- Forked work on one unit, between its events, confines what it does to the state of that unit. -/
theorem confines_concludeTarget {target : BuildUnit} {executions : List Execution}
    {own : List String} {added : List Action} {o : Outcome}
    (h : o.Contributes (depth + 1) own added (enterTarget unit target step executions p)) :
    ∃ more, p.Confines depth more (concludeTarget unit target step p o).2 := by
  have hdeep : ∀ change, Deep (depth + 1)
      (.reported (.ofForkedUnit unit.id step.display target.id .started) :: added ++
        [.reported (.ofForkedUnit unit.id step.display target.id change)]) :=
    fun _ => ((Deep.reported rfl).append h.deep).append (.reported rfl)
  obtain ⟨_ | _, q⟩ := o
  · exact ⟨_, append_between h.actions, hdeep _, rfl⟩
  · refine ⟨_, append_between h.actions, hdeep _, ?_⟩
    unfold concludeTarget
    simp only
    split <;> rfl

/-- What is said of forked work holds of it between its events. -/
theorem confines_bracketFork {added : List Action} {q : Progress} {change : ForkChange}
    (h : (p.report (.ofFork unit.id step.display .started)).Confines depth added q) :
    ∃ more, p.Confines depth more (q.report (.ofFork unit.id step.display change)) :=
  ⟨_, ((Progress.Confines.report rfl).trans h).trans (.report rfl)⟩

variable (x lane) in
/-- Executions on a unit contribute their own steps to its state, and the work that they fork
contributes nothing to it. -/
theorem rules_contributes (hrunner : x.runner.KeepsExecuted) :
    x.Rules lane
      (fun _ depth execution p o =>
        ∃ added, o.Contributes depth (x.ownSteps [execution]) added p)
      (fun _ depth _ _ p o => ∃ added, p.Confines depth added o.2)
      (fun _ depth executions p o => ∃ added, o.Contributes depth (x.ownSteps executions) added p)
    where
  refused _ _ := ⟨[], .of_confines .refl nofun⟩
  skipped hunmet _ := ⟨_, .of_confines (.report rfl) fun _ => ownSteps_of_unmet hunmet⟩
  performed hmet _ := by
    rw [ownSteps_of_met hmet]
    exact contributes_performStep hrunner _
  forkFailed _ hforked := by
    obtain ⟨added, hforked⟩ := hforked
    obtain ⟨more, hconfines⟩ := confines_bracketFork hforked
    exact ⟨more, .of_confines hconfines nofun⟩
  forkSucceeded hmet hforked := by
    obtain ⟨added, hforked⟩ := hforked
    obtain ⟨more, hconfines⟩ := confines_bracketFork hforked
    rw [ownSteps_of_met hmet]
    obtain ⟨performed, hperformed⟩ := contributes_performStep hrunner _
    exact ⟨_, hperformed.prepend hconfines⟩
  forkedNil := ⟨[], .refl⟩
  lost _ := ⟨[], .refl⟩
  targetFailed _ hall := by
    obtain ⟨added, hall⟩ := hall
    exact confines_concludeTarget hall
  targetSucceeded _ hall hrest := by
    obtain ⟨added, hall⟩ := hall
    obtain ⟨more, hconfines⟩ := confines_concludeTarget hall
    obtain ⟨others, hrest⟩ := hrest
    exact ⟨_, hconfines.trans hrest⟩
  nil := ⟨[], .of_confines .refl fun _ => rfl⟩
  failed hone := by
    obtain ⟨added, hone⟩ := hone
    refine ⟨added, hone.actions, hone.deep, hone.executed, ?_, nofun⟩
    rw [ownSteps_cons]
    exact hone.isPrefix.trans (List.prefix_append _ _)
  cons hone hall := by
    obtain ⟨added, hone⟩ := hone
    obtain ⟨more, hall⟩ := hall
    rw [ownSteps_cons]
    exact ⟨_, hone.append hall rfl⟩

end Executor

/-! ### The work of lanes -/

/-- What the work of a lane finishes is added to the state of the unit: the first of the steps that
there are for it, and all of them if the work comes to its end. -/
structure LaneWork.Contributes (own : List String) (before : UnitState) (w : LaneWork) : Prop where
  executed : w.state.executed = before.executed ++ finished w.actions
  isPrefix : finished w.actions <+: own
  eq_of_ok : w.result = .ok () → finished w.actions = own

/-- So it is with all work, if `own` has the steps that there are in a plan. -/
def Work.Contributes (work : Work) (own : ExecutionPlan → List String) : Prop :=
  ∀ number id before plan, (work number id before plan).Contributes (own plan) before

/-- The steps of a plan that the settings of the build allow, forked ones apart. -/
def Executor.ownStepsOf (x : Executor) (plan : ExecutionPlan) : List String :=
  x.ownSteps plan.executions

/-- The work of an executor whose runner leaves the noting to others adds to the state of a unit
exactly the own steps that it has finished. -/
theorem Executor.work_contributes (x : Executor) (hrunner : x.runner.KeepsExecuted) :
    x.work.Contributes x.ownStepsOf := by
  intro number id before plan
  unfold work
  split
  next unit _ =>
    obtain ⟨o, heq, added, ho⟩ :=
      (x.rules_contributes number hrunner).execute unit before plan.executions
    have hactions : o.2.actions = added := ho.actions
    simp only [heq, hactions]
    exact ⟨ho.executed, ho.isPrefix, ho.eq_of_ok⟩
  next => exact ⟨(List.append_nil _).symm, List.nil_prefix, nofun⟩

end PhasedBuild
