import PhasedBuild.Run.Executor

/-!
# What holds of every run of executions

Running executions is a recursion over the executions and the work that they fork. What is shown of
every run is shown along that recursion, which is gone through once, here.

* `Executor.Performs` lists what performing a step may come to: a result together with the actions
  that are added (`Executor.performs_performStep`).
* `Executor.Rules`: what is said of an execution, of forked work and of a list of executions follows
  from what is said of their parts. It then holds of all of them (`Executor.Rules.execute`).
-/

namespace PhasedBuild

namespace Action

@[simp] theorem calls_append (actions others : List Action) :
    calls (actions ++ others) = calls actions ++ calls others :=
  List.filterMap_append

@[simp] theorem requests_append (actions others : List Action) :
    requests (actions ++ others) = requests actions ++ requests others :=
  List.filterMap_append

@[simp] theorem events_append (actions others : List Action) :
    events (actions ++ others) = events actions ++ events others :=
  List.filterMap_append

@[simp] theorem calls_requested (asked : List ResolveRequest) :
    calls (asked.map .requested) = [] := by
  simp [calls, List.filterMap_map, Function.comp_def, call?]

@[simp] theorem requests_requested (asked : List ResolveRequest) :
    requests (asked.map .requested) = asked := by
  simp [requests, List.filterMap_map, Function.comp_def, request?]

@[simp] theorem calls_reported (event : Event) : calls [.reported event] = [] :=
  rfl

@[simp] theorem events_requested (asked : List ResolveRequest) :
    events (asked.map .requested) = [] := by
  simp [events, List.filterMap_map, Function.comp_def, event?]

/-- Actions between two others. -/
theorem append_between {actions before added : List Action} {first last : Action}
    (h : actions = before ++ [first] ++ added) :
    actions ++ [last] = before ++ (first :: added ++ [last]) := by
  rw [h]
  simp

@[simp] theorem events_between (first last : Event) (actions : List Action) :
    events (.reported first :: actions ++ [.reported last]) =
      first :: events actions ++ [last] := by
  simp [events, event?]

end Action

namespace Executor

variable (x : Executor) (lane : Nat)

/-! ### One step -/

section performing

variable (unit : BuildUnit) (depth : Nat) (step : Step) (p : Progress)

/-- Takes the locks of a step, if steps take locks. -/
def acquiring : List Action :=
  if x.locking then
    [.locked ⟨lane, unit.id, step.display⟩ (Access.ofStep step.isAggregating)]
  else []

/-- Gives the locks of a step back. -/
def releasing : List Action :=
  if x.locking then
    [.unlocked ⟨lane, unit.id, step.display⟩ (Access.ofStep step.isAggregating)]
  else []

@[simp] theorem events_acquiring : Action.events (x.acquiring lane unit step) = [] := by
  unfold acquiring
  split <;> rfl

@[simp] theorem calls_acquiring : Action.calls (x.acquiring lane unit step) = [] := by
  unfold acquiring
  split <;> rfl

@[simp] theorem calls_releasing : Action.calls (x.releasing lane unit step) = [] := by
  unfold releasing
  split <;> rfl

@[simp] theorem events_releasing : Action.events (x.releasing lane unit step) = [] := by
  unfold releasing
  split <;> rfl

/-- How what a step needs is resolved. -/
def ensured : Dependencies.Ensured :=
  p.dependencies.ensure (x.resolver.forLane lane) (Action.requests p.actions) x.units unit step

/-- The error of a step whose needs cannot be resolved. -/
def unresolved (reasons : List String) : BuildError :=
  (errorAt unit step.display (.unresolvedDependencies unit.id reasons)).withReasons reasons

/-- The call by which a step is run. -/
def callOf : StepCall where
  owner := ⟨lane, unit.id, step.display⟩
  unit := unit
  step := step
  depth := depth
  artifacts := (x.ensured lane unit step p).dependencies.artifacts
  state := p.state

/-- What performing a step may come to: the result and what is done between its locks. -/
inductive Performs : Except BuildError Unit → List Action → Prop where
  /-- Something that the step needs is not found. -/
  | unresolved {reasons : List String}
    (hneeds : (x.ensured lane unit step p).result = .error reasons) :
      Performs (.error (Executor.unresolved unit step reasons))
        ((x.ensured lane unit step p).requests.map .requested)
  /-- The step is run and fails. -/
  | failed {reasons : List String} (hneeds : (x.ensured lane unit step p).result = .ok ())
      (hanswer : (x.runner (Action.calls p.actions) (x.callOf lane unit depth step p)).1 =
        .error reasons) :
      Performs (.error (failure unit step reasons))
        ((x.ensured lane unit step p).requests.map .requested ++
          [.reported (.ofStep unit.id step.display (.started step.phase)),
            .ran (x.callOf lane unit depth step p),
            .reported (.ofStep unit.id step.display
              (.failed (failure unit step reasons).message))])
  /-- The step is run to its end. -/
  | succeeded (hneeds : (x.ensured lane unit step p).result = .ok ())
      (hanswer : (x.runner (Action.calls p.actions) (x.callOf lane unit depth step p)).1 =
        .ok ()) :
      Performs (.ok ())
        ((x.ensured lane unit step p).requests.map .requested ++
          [.reported (.ofStep unit.id step.display (.started step.phase)),
            .ran (x.callOf lane unit depth step p),
            .reported (.ofStep unit.id step.display .succeeded)])

/-- Preparing and running a step adds actions by which the step is performed. -/
theorem performs_prepareStep :
    ∃ added,
      (x.prepareStep unit ⟨lane, unit.id, step.display⟩ depth step p).2.actions =
        p.actions ++ added ∧
      x.Performs lane unit depth step p
        (x.prepareStep unit ⟨lane, unit.id, step.display⟩ depth step p).1 added := by
  let requested := (x.ensured lane unit step p).requests.map Action.requested
  let q : Progress :=
    { p with dependencies := (x.ensured lane unit step p).dependencies }.act requested
  let started : Event := .ofStep unit.id step.display (.started step.phase)
  let call := x.callOf lane unit depth step p
  have hcalls : Action.calls (q.report started).actions = Action.calls p.actions := by
    show Action.calls ((p.actions ++ requested) ++ [.reported started]) = _
    simp only [Action.calls_append, requested, Action.calls_requested, Action.calls_reported,
      List.append_nil]
  have hrun : x.runStep unit ⟨lane, unit.id, step.display⟩ depth step q =
      concludeStep unit ⟨lane, unit.id, step.display⟩ step call (q.report started)
        (x.runner (Action.calls p.actions) call) := by
    rw [← hcalls]
    rfl
  unfold prepareStep
  rw [← ensured]
  simp only
  split
  next hneeds =>
    rw [show x.runStep _ _ _ _ _ = _ from hrun]
    cases hanswer : x.runner (Action.calls p.actions) call with
    | mk answer state =>
      have hanswer : (x.runner (Action.calls p.actions) call).1 = answer := by rw [hanswer]
      cases answer with
      | ok _ =>
        refine ⟨_, ?_, .succeeded hneeds hanswer⟩
        simp [concludeStep, Progress.report, Progress.act, q, requested, started, call]
      | error reasons =>
        refine ⟨_, ?_, .failed hneeds hanswer⟩
        simp [concludeStep, Progress.report, Progress.act, q, requested, started, call]
  next reasons hneeds => exact ⟨requested, rfl, .unresolved hneeds⟩

/-- Whatever performing a step comes to, it is done between the locks of the step. -/
theorem performs_performStep :
    ∃ added,
      (x.performStep lane unit depth step p).2.actions =
        p.actions ++ (x.acquiring lane unit step ++ added ++ x.releasing lane unit step) ∧
      x.Performs lane unit depth step (p.act (x.acquiring lane unit step))
        (x.performStep lane unit depth step p).1 added := by
  obtain ⟨added, heq, hperforms⟩ := x.performs_prepareStep lane unit depth step
    (p.act (x.acquiring lane unit step))
  refine ⟨added, ?_, hperforms⟩
  show (x.prepareStep _ _ _ _ (p.act (x.acquiring lane unit step))).2.actions ++
    x.releasing lane unit step = _
  rw [heq]
  simp [Progress.act]

end performing

/-! ### The recursion -/

/-- Where the work on a unit starts. -/
def enter (unit : BuildUnit) (state : UnitState) (executions : List Execution) : Progress where
  state := state
  dependencies := .ofExecutions unit.id executions
  actions := []

/-- Where the work starts that a step forks on a unit. -/
def enterTarget (unit target : BuildUnit) (step : Step) (executions : List Execution)
    (p : Progress) : Progress where
  state := if target.id = unit.id then p.state.copy else .ofUnit target
  dependencies := .ofExecutions target.id executions
  actions := (p.report (.ofForkedUnit unit.id step.display target.id .started)).actions

/-- What is said of an execution (`one`), of the work that a step forks (`forked`) and of a list of
executions (`all`), in terms of the progress at their start and their outcome, follows from what is
said of their parts. -/
structure Rules (one : BuildUnit → Nat → Execution → Progress → Outcome → Prop)
    (forked : BuildUnit → Nat → Step → List (Forked Execution) → Progress → Outcome → Prop)
    (all : BuildUnit → Nat → List Execution → Progress → Outcome → Prop) : Prop where
  /-- A step that was asked for by its goal and is not allowed. -/
  refused : ∀ {unit : BuildUnit} {depth : Nat} {execution : Execution} {p : Progress}
    {fault : Fault}, x.unmet? execution.step = some fault → execution.step.source = .cli →
    one unit depth execution p (.error (errorAt unit execution.step.display fault), p)
  /-- Any other step that is not allowed. -/
  skipped : ∀ {unit : BuildUnit} {depth : Nat} {execution : Execution} {p : Progress}
    {fault : Fault}, x.unmet? execution.step = some fault → execution.step.source ≠ .cli →
    one unit depth execution p
      (.ok (), p.report (.ofStep unit.id execution.step.display (.skipped fault.message)))
  /-- A step that forks nothing. -/
  performed : ∀ {unit : BuildUnit} {depth : Nat} {execution : Execution} {p : Progress},
    x.unmet? execution.step = none → execution.forkedUnits = [] →
    one unit depth execution p (x.performStep lane unit depth execution.step p)
  /-- A step whose forked work fails. -/
  forkFailed : ∀ {unit : BuildUnit} {depth : Nat} {execution : Execution} {p q : Progress}
    {error : BuildError}, x.unmet? execution.step = none →
    forked unit depth execution.step execution.forkedUnits
      (p.report (.ofFork unit.id execution.step.display .started)) (.error error, q) →
    one unit depth execution p
      (.error error, q.report (.ofFork unit.id execution.step.display (.failed error.message)))
  /-- A step whose forked work comes to its end. -/
  forkSucceeded : ∀ {unit : BuildUnit} {depth : Nat} {execution : Execution} {p q : Progress},
    x.unmet? execution.step = none →
    forked unit depth execution.step execution.forkedUnits
      (p.report (.ofFork unit.id execution.step.display .started)) (.ok (), q) →
    one unit depth execution p (x.performStep lane unit depth execution.step
      (q.report (.ofFork unit.id execution.step.display .succeeded)))
  forkedNil : ∀ {unit : BuildUnit} {depth : Nat} {step : Step} {p : Progress},
    forked unit depth step [] p (.ok (), p)
  /-- Work forked on a unit outside the build. -/
  lost : ∀ {unit : BuildUnit} {depth : Nat} {step : Step} {id : String}
    {executions : List Execution} {rest : List (Forked Execution)} {p : Progress},
    x.units.get? id = none →
    forked unit depth step (⟨id, executions⟩ :: rest) p
      (.error (errorAt unit step.display (.forkedUnitOutsideBuild id)), p)
  /-- Work forked on a unit that fails. -/
  targetFailed : ∀ {unit target : BuildUnit} {depth : Nat} {step : Step} {id : String}
    {executions : List Execution} {rest : List (Forked Execution)} {p q : Progress}
    {error : BuildError}, x.units.get? id = some target →
    all target (depth + 1) executions (enterTarget unit target step executions p)
      (.error error, q) →
    forked unit depth step (⟨id, executions⟩ :: rest) p
      (concludeTarget unit target step p (.error error, q))
  /-- Work forked on a unit that comes to its end. -/
  targetSucceeded : ∀ {unit target : BuildUnit} {depth : Nat} {step : Step} {id : String}
    {executions : List Execution} {rest : List (Forked Execution)} {p q : Progress}
    {o : Outcome}, x.units.get? id = some target →
    all target (depth + 1) executions (enterTarget unit target step executions p) (.ok (), q) →
    forked unit depth step rest (concludeTarget unit target step p (.ok (), q)).2 o →
    forked unit depth step (⟨id, executions⟩ :: rest) p o
  nil : ∀ {unit : BuildUnit} {depth : Nat} {p : Progress}, all unit depth [] p (.ok (), p)
  failed : ∀ {unit : BuildUnit} {depth : Nat} {execution : Execution} {rest : List Execution}
    {p q : Progress} {error : BuildError}, one unit depth execution p (.error error, q) →
    all unit depth (execution :: rest) p (.error error, q)
  cons : ∀ {unit : BuildUnit} {depth : Nat} {execution : Execution} {rest : List Execution}
    {p q : Progress} {o : Outcome}, one unit depth execution p (.ok (), q) →
    all unit depth rest { q with state := q.state.enterPhase execution.step.phase } o →
    all unit depth (execution :: rest) p o

/-- Forked work on a unit is done from where it starts there, and then concluded. -/
theorem bracketTarget_eq (unit target : BuildUnit) (step : Step) (executions : List Execution)
    (p : Progress) (work : Progress → Outcome) :
    bracketTarget unit target step executions p work =
      concludeTarget unit target step p (work (enterTarget unit target step executions p)) :=
  rfl

namespace Rules

variable {x : Executor} {lane : Nat}
  {one : BuildUnit → Nat → Execution → Progress → Outcome → Prop}
  {forked : BuildUnit → Nat → Step → List (Forked Execution) → Progress → Outcome → Prop}
  {all : BuildUnit → Nat → List Execution → Progress → Outcome → Prop}

/-- A step that may be passed over or refused, and else is worked on. -/
theorem whenAllowed (h : x.Rules lane one forked all) {unit : BuildUnit} {depth : Nat}
    {execution : Execution} {p : Progress} {work : Progress → Outcome}
    (hwork : x.unmet? execution.step = none → one unit depth execution p (work p)) :
    one unit depth execution p (x.whenAllowed unit execution.step p work) := by
  unfold Executor.whenAllowed
  split
  next hmet => exact hwork hmet
  next fault hunmet =>
    split
    next hcli => exact h.refused hunmet hcli
    next hcli => exact h.skipped hunmet hcli

mutual

/-- What follows from the rules holds of every execution. -/
theorem executeOne (h : x.Rules lane one forked all) (unit : BuildUnit) (depth : Nat)
    (p : Progress) :
    (execution : Execution) → one unit depth execution p (x.executeOne lane unit depth p execution)
  | ⟨step, .expanded units⟩ => by
    unfold Executor.executeOne
    refine h.whenAllowed fun hmet => ?_
    have hforked := executeForked h unit depth step
      (p.report (.ofFork unit.id step.display .started)) units
    cases units with
    | nil => exact h.performed hmet rfl
    | cons target rest =>
      simp only [List.isEmpty_cons, Bool.false_eq_true, if_false, bracketFork]
      split
      next heq =>
        split at heq
        next => cases heq
        next error q hdone =>
          obtain ⟨⟨⟩, rfl⟩ := Prod.mk.inj heq
          rw [hdone] at hforked
          exact h.forkFailed hmet hforked
      next heq =>
        split at heq
        next q hdone =>
          obtain ⟨-, rfl⟩ := Prod.mk.inj heq
          rw [hdone] at hforked
          exact h.forkSucceeded hmet hforked
        next => cases heq
  | ⟨step, .pending⟩ => by
    unfold Executor.executeOne
    exact h.whenAllowed fun hmet => h.performed hmet rfl
  | ⟨step, .notForking⟩ => by
    unfold Executor.executeOne
    exact h.whenAllowed fun hmet => h.performed hmet rfl

/-- What follows from the rules holds of the work that a step forks. -/
theorem executeForked (h : x.Rules lane one forked all) (unit : BuildUnit) (depth : Nat)
    (step : Step) (p : Progress) : (units : List (Forked Execution)) →
      forked unit depth step units p (x.executeForked lane unit depth step p units)
  | [] => by
    unfold Executor.executeForked
    exact h.forkedNil
  | ⟨id, executions⟩ :: rest => by
    unfold Executor.executeForked
    split
    next hget => exact h.lost hget
    next target hget =>
      have hinner := executeList h target (depth + 1)
        (enterTarget unit target step executions p) executions
      simp only [bracketTarget_eq]
      cases hdone : x.executeList lane target (depth + 1)
        (enterTarget unit target step executions p) executions with
      | mk result q =>
        rw [hdone] at hinner
        cases result with
        | error error => exact h.targetFailed hget hinner
        | ok _ => exact h.targetSucceeded hget hinner (executeForked h unit depth step _ rest)

/-- What follows from the rules holds of every list of executions. -/
theorem executeList (h : x.Rules lane one forked all) (unit : BuildUnit) (depth : Nat)
    (p : Progress) : (executions : List Execution) →
      all unit depth executions p (x.executeList lane unit depth p executions)
  | [] => by
    unfold Executor.executeList
    exact h.nil
  | execution :: rest => by
    have hdone := executeOne h unit depth p execution
    unfold Executor.executeList
    split
    next hw =>
      rw [hw] at hdone
      exact h.failed hdone
    next q hw =>
      rw [hw] at hdone
      exact h.cons hdone (executeList h unit depth _ rest)

end

/-- What is said of a list of executions holds of the work on a unit. -/
theorem execute (h : x.Rules lane one forked all) (unit : BuildUnit) (state : UnitState)
    (executions : List Execution) :
    ∃ o : Outcome, x.execute lane unit state executions = (o.1, o.2.state, o.2.actions) ∧
      all unit 0 executions (enter unit state executions) o :=
  ⟨_, rfl, h.executeList unit 0 (enter unit state executions) executions⟩

end Rules

end Executor

end PhasedBuild
