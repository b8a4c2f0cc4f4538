import PhasedBuild.Proofs.Run.Forks
import PhasedBuild.Proofs.Run.Locality

/-!
# Runs with and without forked work

Forked work has no part in what becomes of the forking unit, except that it may fail. Two runs are
compared: of executions, and of the same executions without their forks.

* `Runner.OverlooksCopies`: a runner that looks at nothing but the call, and not at the copy in it.
* `Outcome.Alike`: outcomes with the same result and with states that differ in the copy only.
* `Executor.execute_alike`: unless forked work fails, both runs come to the same.
* `Executor.exists_of_forksFail`: if forked work fails, the state is that before the forking step.
-/

namespace PhasedBuild

/-- The execution without the work that it forks. -/
def Execution.withoutForks (e : Execution) : Execution :=
  { e with forks := .notForking }

/-- The call as it is if there is no copy to be seen. -/
def StepCall.withoutCopy (call : StepCall) : StepCall :=
  { call with state := call.state.copy }

/-- The answer to a call does not depend on the calls before, and neither the result nor what
becomes of the state depends on the copy in it. -/
def Runner.OverlooksCopies (r : Runner) : Prop :=
  ∀ (history : List StepCall) (call : StepCall),
    (r history call).1 = (r [] call.withoutCopy).1 ∧
      (r history call).2.copy = (r [] call.withoutCopy).2.copy

/-- Two points of the work on a unit at which only the copies of its state may differ, and what has
been noted of it. -/
structure Progress.Alike (p q : Progress) : Prop where
  state : p.state.copy = q.state.copy
  dependencies : p.dependencies = q.dependencies

/-- Two outcomes with the same result at points that are alike. -/
structure Outcome.Alike (o o' : Outcome) : Prop where
  result : o.1 = o'.1
  progress : o.2.Alike o'.2

namespace UnitState

/-- Noting a phase and taking a copy may be exchanged. -/
theorem copy_enterPhase (s : UnitState) (phase : Option String) :
    (s.enterPhase phase).copy = s.copy.enterPhase phase :=
  rfl

/-- Two states have the same copy exactly if they agree in all but the copies that they hold. -/
theorem copy_eq_iff {s t : UnitState} : s.copy = t.copy ↔
    s.lastPhase = t.lastPhase ∧ s.executed = t.executed ∧ s.properties = t.properties := by
  simp [copy]

end UnitState

namespace Outcome.Alike

variable {o o' : Outcome} {p q : Progress}

/-- Ends that are alike are outcomes that are alike. -/
theorem ok (h : p.Alike q) : Alike (.ok (), p) (.ok (), q) :=
  ⟨rfl, h⟩

/-- The same failure at points that are alike makes outcomes that are alike. -/
theorem error (error : BuildError) (h : p.Alike q) : Alike (.error error, p) (.error error, q) :=
  ⟨rfl, h⟩

end Outcome.Alike

namespace Executor

variable {x : Executor} {p q : Progress}

/-! ### One step -/

/-- Answers that differ in copies only conclude a step alike. -/
theorem concludeStep_alike (h : p.Alike q) (unit : BuildUnit) (owner : Owner) (step : Step)
    (call call' : StepCall) {answer answer' : Except (List String) Unit × UnitState}
    (hresult : answer.1 = answer'.1) (hstate : answer.2.copy = answer'.2.copy) :
    Outcome.Alike (concludeStep unit owner step call p answer)
      (concludeStep unit owner step call' q answer') := by
  obtain ⟨result, state⟩ := answer
  obtain ⟨result', state'⟩ := answer'
  obtain rfl : result = result' := hresult
  obtain ⟨hphase, hexecuted, hproperties⟩ := UnitState.copy_eq_iff.1 hstate
  cases result with
  | ok _ =>
    refine .ok ⟨UnitState.copy_eq_iff.2 ⟨hphase, ?_, hproperties⟩, h.dependencies⟩
    exact congrArg (· ++ [owner.step]) hexecuted
  | error reasons => exact .error _ ⟨hstate, h.dependencies⟩

section steps

variable (hrunner : x.runner.OverlooksCopies) (lane : Nat) (unit : BuildUnit) (depth : Nat)
  (step : Step)
include hrunner

/-- A step is run alike with and without a copy, for the runner overlooks it. -/
theorem runStep_alike (h : p.Alike q) (owner : Owner) :
    (x.runStep unit owner depth step p).Alike (x.runStep unit owner depth step q) := by
  have hcall : ({ owner, unit, step, depth, artifacts := p.dependencies.artifacts
                  state := p.state } : StepCall).withoutCopy =
      ({ owner, unit, step, depth, artifacts := q.dependencies.artifacts
         state := q.state } : StepCall).withoutCopy := by
    unfold StepCall.withoutCopy
    simp only [h.state, h.dependencies]
  have hanswer := hrunner (Action.calls (p.report (.ofStep unit.id owner.step
    (.started step.phase))).actions) ⟨owner, unit, step, depth, p.dependencies.artifacts, p.state⟩
  have hanswer' := hrunner (Action.calls (q.report (.ofStep unit.id owner.step
    (.started step.phase))).actions) ⟨owner, unit, step, depth, q.dependencies.artifacts, q.state⟩
  rw [← hcall] at hanswer'
  have hstarted : (p.report (.ofStep unit.id owner.step (.started step.phase))).Alike
      (q.report (.ofStep unit.id owner.step (.started step.phase))) :=
    ⟨h.state, h.dependencies⟩
  exact concludeStep_alike hstarted unit owner step _ _ (hanswer.1.trans hanswer'.1.symm)
    (hanswer.2.trans hanswer'.2.symm)

variable (hresolver : (x.resolver.forLane lane).IsLocal)
include hresolver

/-- The needs of a step do not depend on copies. -/
theorem prepareStep_alike (h : p.Alike q) (name : String) :
    (x.prepareStep unit ⟨lane, unit.id, name⟩ depth step p).Alike
      (x.prepareStep unit ⟨lane, unit.id, name⟩ depth step q) := by
  have hensured : q.dependencies.ensure (x.resolver.forLane lane) (Action.requests q.actions)
      x.units unit step = p.dependencies.ensure (x.resolver.forLane lane)
        (Action.requests p.actions) x.units unit step := by
    rw [h.dependencies]
    exact Dependencies.ensure_eq hresolver _ _ _ _ _ _
  unfold prepareStep
  simp only [hensured]
  generalize p.dependencies.ensure (x.resolver.forLane lane) (Action.requests p.actions) x.units
    unit step = e
  have hresolved : ({ p with dependencies := e.dependencies }.act
      (e.requests.map .requested)).Alike
        ({ q with dependencies := e.dependencies }.act (e.requests.map .requested)) :=
    ⟨h.state, rfl⟩
  cases e.result with
  | ok _ => exact runStep_alike hrunner unit depth step hresolved ⟨lane, unit.id, name⟩
  | error reasons => exact .error _ hresolved

/-- A step is performed alike with and without a copy. -/
theorem performStep_alike (h : p.Alike q) : (x.performStep lane unit depth step p).Alike
    (x.performStep lane unit depth step q) := by
  have hlocked : (p.act (x.acquiring lane unit step)).Alike
      (q.act (x.acquiring lane unit step)) :=
    ⟨h.state, h.dependencies⟩
  have hdone := prepareStep_alike hrunner lane unit depth step hresolver hlocked step.display
  exact ⟨hdone.result, hdone.progress.state, hdone.progress.dependencies⟩

/-! ### Lists of executions -/

/-- An execution comes to the same without its forked work, unless that fails. -/
theorem executeOne_alike (h : p.Alike q) (execution : Execution)
    (hquiet : ¬ Action.ForksFail (x.executeOne lane unit depth p execution).2.actions) :
    (x.executeOne lane unit depth p execution).Alike
      (x.executeOne lane unit depth q execution.withoutForks) := by
  rw [executeOne_eq] at hquiet ⊢
  rw [executeOne_eq]
  show Outcome.Alike _ (x.whenAllowed unit execution.step q (x.performStep lane unit depth _))
  unfold whenAllowed at hquiet ⊢
  split
  next hmet =>
    simp only [hmet] at hquiet ⊢
    have hleaves := x.runForks_leaves lane unit depth execution.step p execution.forkedUnits
    cases hforks : x.runForks lane unit depth execution.step p execution.forkedUnits with
    | mk result r =>
      rw [hforks] at hquiet hleaves
      cases result with
      | error error => exact absurd (forksFail_of_runForks_error hforks) hquiet
      | ok _ =>
        have halike : r.Alike q :=
          ⟨hleaves.1.trans h.state, hleaves.2.trans h.dependencies⟩
        exact performStep_alike hrunner lane unit depth execution.step hresolver halike
  next fault _ =>
    split
    next => exact .error _ h
    next => exact .ok ⟨h.state, h.dependencies⟩

/-- Executions and the same executions without their forks come to outcomes that are alike, unless
forked work fails. -/
theorem executeList_alike (h : p.Alike q) (executions : List Execution)
    (hquiet : ¬ Action.ForksFail (x.executeList lane unit depth p executions).2.actions) :
    (x.executeList lane unit depth p executions).Alike
      (x.executeList lane unit depth q (executions.map Execution.withoutForks)) := by
  induction executions generalizing p q with
  | nil =>
    rw [List.map_nil, executeList_nil, executeList_nil]
    exact .ok h
  | cons execution rest ih =>
    rw [List.map_cons, executeList_cons, executeList_cons]
    rw [executeList_cons] at hquiet
    -- Actions are only added, so what has failed in an execution shows at the end of the list.
    have hone : ¬ Action.ForksFail (x.executeOne lane unit depth p execution).2.actions := by
      intro hfail
      refine hquiet ?_
      cases hdone : x.executeOne lane unit depth p execution with
      | mk result r =>
        rw [hdone] at hfail
        cases result with
        | error error => exact hfail
        | ok _ =>
          obtain ⟨added, hactions, -⟩ := (x.rules_adds lane).executeList unit depth
            { r with state := r.state.enterPhase execution.step.phase } rest
          rw [Outcome.andThen_ok, hactions, Action.forksFail_append]
          exact .inl hfail
    have halike := executeOne_alike hrunner lane unit depth hresolver h execution hone
    cases hdone : x.executeOne lane unit depth p execution with
    | mk result r =>
      rw [hdone] at halike hquiet
      cases hdone' : x.executeOne lane unit depth q execution.withoutForks with
      | mk result' r' =>
        rw [hdone'] at halike
        obtain rfl : result = result' := halike.result
        cases result with
        | error error => exact .error error halike.progress
        | ok _ =>
          refine ih ⟨?_, halike.progress.dependencies⟩ hquiet
          show (r.state.enterPhase _).copy = (r'.state.enterPhase _).copy
          rw [UnitState.copy_enterPhase, UnitState.copy_enterPhase, halike.progress.state]
          rfl

/-- Unless forked work fails, executions on a unit come to the same without their forks. -/
theorem execute_alike (state : UnitState) (executions : List Execution)
    (hquiet : ¬ Action.ForksFail (x.execute lane unit state executions).2.2) :
    (x.execute lane unit state executions).1 =
        (x.execute lane unit state (executions.map .withoutForks)).1 ∧
      (x.execute lane unit state executions).2.1.copy =
        (x.execute lane unit state (executions.map .withoutForks)).2.1.copy := by
  have hdependencies : Dependencies.ofExecutions unit.id (executions.map .withoutForks) =
      Dependencies.ofExecutions unit.id executions := by
    unfold Dependencies.ofExecutions
    rw [List.foldl_map]
    rfl
  have hstart : (enter unit state executions).Alike
      (enter unit state (executions.map .withoutForks)) :=
    ⟨rfl, hdependencies.symm⟩
  have hdone := executeList_alike hrunner lane unit 0 hresolver hstart executions hquiet
  exact ⟨hdone.result, hdone.progress.state⟩

end steps

/-! ### Forked work that fails -/

/-- If forked work fails in the course of executions on a unit, it is forked by one of them at which
they fail, and the state is still that before it. -/
theorem exists_of_forksFail {lane : Nat} {unit : BuildUnit} {state : UnitState}
    {executions : List Execution}
    (h : Action.ForksFail (x.execute lane unit state executions).2.2) :
    ∃ before execution after q error, executions = before ++ execution :: after ∧
      x.executeList lane unit 0 (enter unit state executions) before = (.ok (), q) ∧
      execution.forkedUnits ≠ [] ∧
      (x.execute lane unit state executions).1 = .error error ∧
      (x.execute lane unit state executions).2.1.copy = q.state.copy := by
  let start := enter unit state executions
  obtain ⟨added, hactions, hquiet⟩ := (x.rules_adds lane).executeList unit 0 start executions
  have hfail : Action.ForksFail (x.executeList lane unit 0 start executions).2.actions := h
  show ∃ before execution after, ∃ q : Progress, ∃ error, _ ∧ _ ∧ _ ∧
    (x.executeList lane unit 0 start executions).1 = .error error ∧
      (x.executeList lane unit 0 start executions).2.state.copy = q.state.copy
  cases hdone : x.executeList lane unit 0 start executions with
  | mk result r =>
    rw [hdone] at hactions hquiet hfail
    obtain rfl : r.actions = added := hactions
    cases result with
    | ok _ => exact absurd hfail (hquiet rfl)
    | error error =>
      obtain ⟨before, execution, after, q, hsplit, hbefore, hexecution⟩ :=
        exists_of_executeList_error hdone
      obtain ⟨earlier, hearlier, hearlierQuiet⟩ :=
        (x.rules_adds lane).executeList unit 0 start before
      rw [hbefore] at hearlier hearlierQuiet
      obtain rfl : q.actions = earlier := hearlier
      have hforks := runForks_of_forksFail (hearlierQuiet rfl) hexecution hfail
      refine ⟨before, execution, after, q, error, hsplit, hbefore, ?_, rfl, ?_⟩
      · intro hnil
        rw [hnil] at hforks
        cases hforks
      · have hleaves := x.runForks_leaves lane unit 0 execution.step q execution.forkedUnits
        rw [hforks] at hleaves
        exact hleaves.1

end Executor

end PhasedBuild
