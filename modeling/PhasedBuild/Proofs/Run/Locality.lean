import PhasedBuild.Run.Executor

/-!
# What the work on a unit depends on

Runners and resolvers are local if what they answer depends only on what they are asked. Then the
work on a unit comes to the same whichever lane does it and whether steps take locks, for neither
the number of a lane nor the locks have a part in it.

* `Outcome.Agree`: two outcomes with the same result, the same state and the same dependencies, and
  a result that is no failure of configuration.
* `Executor.execute_agree`: executions on a unit agree on every lane, with and without locks.
-/

set_option linter.unusedSectionVars false

namespace PhasedBuild

/-- The answer to a call depends neither on the calls before nor on the lane that makes it. -/
def Runner.IsLocal (r : Runner) : Prop :=
  ∀ (history : List StepCall) (call : StepCall) (lane : Nat),
    r history call = r [] { call with owner := { call.owner with lane } }

/-- The answer to a request does not depend on the requests before. -/
def Resolver.IsLocal (r : Resolver) : Prop :=
  ∀ (history : List ResolveRequest) (unit : BuildUnit) (scopes : ScopeSet),
    r history unit scopes = r [] unit scopes

/-- The answer to a request depends neither on the requests before nor on the lane that makes it. -/
def SharedResolver.IsLocal (r : SharedResolver) : Prop :=
  ∀ lane, (r.forLane lane).IsLocal ∧ r.forLane lane = r.forLane 0

/-- A resolver that answers all lanes alike and each request by itself depends on no lane. -/
theorem SharedResolver.isLocal_coe {r : Resolver} (h : r.IsLocal) : (r : SharedResolver).IsLocal :=
  fun _ => ⟨h, rfl⟩

/-- A local runner gives the same answer to calls that differ in their lane only, whatever ran
before. -/
theorem Runner.IsLocal.eq {r : Runner} (h : r.IsLocal) (history history' : List StepCall)
    (call call' : StepCall) (hcall : { call with owner := { call.owner with lane := 0 } } =
      { call' with owner := { call'.owner with lane := 0 } }) :
    r history call = r history' call' := by
  rw [h history call 0, h history' call' 0, hcall]

/-- A local resolver gives the same answers whatever has been asked before. -/
theorem Resolver.IsLocal.eq {r : Resolver} (h : r.IsLocal)
    (history history' : List ResolveRequest) : r history = r history' := by
  funext unit scopes
  rw [h history, h history']

/-- Two points of the work on a unit at which it goes on alike: only what has been noted of it may
differ. -/
structure Progress.Agree (p q : Progress) : Prop where
  state : p.state = q.state
  dependencies : p.dependencies = q.dependencies

/-- Two outcomes that agree, and that are no failures of configuration. -/
structure Outcome.Agree (o o' : Outcome) : Prop where
  result : o.1 = o'.1
  progress : o.2.Agree o'.2
  not_configuration : ∀ error, o.1 = .error error → error.isConfiguration = false

/-- Points that agree still agree when each of them notes actions of its own. -/
theorem Progress.Agree.act {p q : Progress} (h : p.Agree q) (actions others : List Action) :
    (p.act actions).Agree (q.act others) :=
  ⟨h.state, h.dependencies⟩

/-- Points that agree still agree when each of them reports an event of its own. -/
theorem Progress.Agree.report {p q : Progress} (h : p.Agree q) (event other : Event) :
    (p.report event).Agree (q.report other) :=
  h.act _ _

/-- Ends that agree are outcomes that agree. -/
theorem Outcome.Agree.ok {p q : Progress} (h : p.Agree q) : Outcome.Agree (.ok (), p) (.ok (), q) :=
  ⟨rfl, h, fun _ heq => nomatch heq⟩

/-- The same failure at points that agree makes outcomes that agree, if it is none of
configuration. -/
theorem Outcome.Agree.error {p q : Progress} (h : p.Agree q) {error : BuildError}
    (herror : error.isConfiguration = false) :
    Outcome.Agree (.error error, p) (.error error, q) :=
  ⟨rfl, h, fun _ heq => by obtain rfl := Except.error.inj heq; exact herror⟩

/-- Work that goes on alike after outcomes that agree. -/
theorem Outcome.Agree.cases {o o' : Outcome} (h : o.Agree o') :
    (∃ p q, o = (.ok (), p) ∧ o' = (.ok (), q) ∧ p.Agree q) ∨
      ∃ error p q, o = (.error error, p) ∧ o' = (.error error, q) ∧ p.Agree q ∧
        error.isConfiguration = false := by
  obtain ⟨result, p⟩ := o
  obtain ⟨result', q⟩ := o'
  obtain rfl : result = result' := h.result
  cases result with
  | ok _ => exact .inl ⟨p, q, rfl, rfl, h.progress⟩
  | error error =>
    exact .inr ⟨error, p, q, rfl, rfl, h.progress, h.not_configuration error rfl⟩

/-! ### Dependencies -/

namespace Dependencies

variable {resolver : Resolver} (hresolver : resolver.IsLocal)
include hresolver

/-- What is resolved for a unit does not depend on the requests before. -/
theorem resolveUnit_eq (d : Dependencies) (history history' : List ResolveRequest)
    (unit : BuildUnit) (required : ScopeSet) :
    d.resolveUnit resolver history unit required =
      d.resolveUnit resolver history' unit required := by
  unfold resolveUnit
  rw [hresolver.eq history history']

/-- What is resolved for other units does not depend on the requests before. -/
theorem resolveOthers_eq (required : ScopeSet) (d : Dependencies)
    (history history' : List ResolveRequest) (units : List BuildUnit) :
    resolveOthers resolver required d history units =
      resolveOthers resolver required d history' units := by
  induction units generalizing d history history' with
  | nil => rfl
  | cons other rest ih =>
    unfold resolveOthers
    have hrest : ∀ d, resolveOthers resolver required d
        (history ++ [⟨other.id, required.toList⟩]) rest = resolveOthers resolver required d
        (history' ++ [⟨other.id, required.toList⟩]) rest := fun d => ih d _ _
    rw [hresolver.eq history history']
    simp only [hrest]

/-- What is resolved does not depend on the requests before. -/
theorem ensure_eq (d : Dependencies) (history history' : List ResolveRequest) (units : UnitGraph)
    (unit : BuildUnit) (step : Step) :
    d.ensure resolver history units unit step = d.ensure resolver history' units unit step := by
  have hothers : ∀ required d requests units, resolveOthers resolver required d
      (history ++ requests) units =
        resolveOthers resolver required d (history' ++ requests) units :=
    fun required d _ units => resolveOthers_eq hresolver required d _ _ units
  unfold ensure
  simp only [resolveUnit_eq hresolver d history history', hothers]

end Dependencies

namespace Executor

/-- The same executor, with or without locks. -/
def withLocking (x : Executor) (locking : Bool) : Executor :=
  { x with locking }

variable {x : Executor} {p q : Progress}

/-! ### One step -/

/-- A step that fails is no failure of configuration. -/
theorem not_isConfiguration_failure (unit : BuildUnit) (step : Step) (reasons : List String) :
    (failure unit step reasons).isConfiguration = false := by
  unfold failure
  cases step.phase <;> rfl

/-- A step that the settings do not allow is no failure of configuration. -/
theorem not_isConfiguration_unmet {step : Step} {fault : Fault} (h : x.unmet? step = some fault)
    (unit : BuildUnit) : (errorAt unit step.display fault).isConfiguration = false := by
  unfold unmet? at h
  split at h
  next =>
    obtain rfl := Option.some.inj h
    rfl
  next =>
    split at h
    next =>
      obtain rfl := Option.some.inj h
      rfl
    next => cases h

/-- The same answer to two calls concludes a step alike. -/
theorem concludeStep_agree (h : p.Agree q) (unit : BuildUnit) {owner owner' : Owner}
    (howner : owner.step = owner'.step) (step : Step) (call call' : StepCall)
    (answer : Except (List String) Unit × UnitState) :
    Outcome.Agree (concludeStep unit owner step call p answer)
      (concludeStep unit owner' step call' q answer) := by
  obtain ⟨answer, state⟩ := answer
  unfold concludeStep
  cases answer with
  | ok _ =>
    refine .ok ⟨?_, h.dependencies⟩
    simp only [Progress.report, Progress.act, howner]
  | error reasons =>
    have hstate : Progress.Agree { p with state } { q with state } := ⟨rfl, h.dependencies⟩
    exact .error ((hstate.act _ _).report _ _) (not_isConfiguration_failure unit step reasons)

section steps

variable (hrunner : x.runner.IsLocal) (locking : Bool) (lane lane' : Nat)
include hrunner

/-- A step is run alike, whatever the lane and whether or not locks are taken. -/
theorem runStep_agree (h : p.Agree q) (unit : BuildUnit) (name : String) (depth : Nat)
    (step : Step) : Outcome.Agree (x.runStep unit ⟨lane, unit.id, name⟩ depth step p)
      ((x.withLocking locking).runStep unit ⟨lane', unit.id, name⟩ depth step q) := by
  let event : Event := .ofStep unit.id name (.started step.phase)
  have hanswer := hrunner.eq (Action.calls (p.report event).actions)
    (Action.calls (q.report event).actions)
    { owner := ⟨lane, unit.id, name⟩, unit, step, depth
      artifacts := p.dependencies.artifacts, state := p.state }
    { owner := ⟨lane', unit.id, name⟩, unit, step, depth
      artifacts := q.dependencies.artifacts, state := q.state }
    (by simp only [h.state, h.dependencies])
  show Outcome.Agree (concludeStep _ _ _ _ _ (x.runner _ _)) (concludeStep _ _ _ _ _ (x.runner _ _))
  exact hanswer ▸ concludeStep_agree (h.report event event) unit rfl step _ _ _

variable (hresolver : x.resolver.IsLocal)
include hresolver

/-- The needs of a step are resolved and it is run alike, whatever the lane and whether or not locks
are taken. -/
theorem prepareStep_agree (h : p.Agree q) (unit : BuildUnit) (name : String) (depth : Nat)
    (step : Step) : Outcome.Agree (x.prepareStep unit ⟨lane, unit.id, name⟩ depth step p)
      ((x.withLocking locking).prepareStep unit ⟨lane', unit.id, name⟩ depth step q) := by
  have hensured : q.dependencies.ensure ((x.withLocking locking).resolver.forLane lane')
      (Action.requests q.actions) (x.withLocking locking).units unit step =
      p.dependencies.ensure (x.resolver.forLane lane) (Action.requests p.actions) x.units unit
        step := by
    show q.dependencies.ensure (x.resolver.forLane lane') _ x.units unit step = _
    rw [h.dependencies, (hresolver lane').2, (hresolver lane).2]
    exact Dependencies.ensure_eq (hresolver 0).1 _ _ _ _ _ _
  unfold prepareStep
  simp only [hensured]
  generalize p.dependencies.ensure (x.resolver.forLane lane) (Action.requests p.actions) x.units
    unit step = e
  have hresolved : ({ p with dependencies := e.dependencies }.act (e.requests.map .requested)).Agree
      ({ q with dependencies := e.dependencies }.act (e.requests.map .requested)) :=
    ⟨h.state, rfl⟩
  cases e.result with
  | ok _ => exact runStep_agree hrunner locking lane lane' hresolved unit name depth step
  | error reasons =>
    refine .error hresolved ?_
    rfl

/-- A step is performed alike, whatever the lane and whether or not locks are taken. -/
theorem performStep_agree (h : p.Agree q) (unit : BuildUnit) (depth : Nat) (step : Step) :
    Outcome.Agree (x.performStep lane unit depth step p)
      ((x.withLocking locking).performStep lane' unit depth step q) := by
  let access := Access.ofStep step.isAggregating
  have hdone := prepareStep_agree hrunner locking lane lane' hresolver
    (h.act (if x.locking then [.locked ⟨lane, unit.id, step.display⟩ access] else [])
      (if locking then [.locked ⟨lane', unit.id, step.display⟩ access] else []))
    unit step.display depth step
  refine ⟨hdone.result, ⟨?_, hdone.progress.dependencies⟩, hdone.not_configuration⟩
  exact congrArg (fun state : UnitState => { state with forked := none }) hdone.progress.state

end steps

/-! ### Brackets around work -/

/-- Forked work that comes to outcomes which agree is concluded alike. -/
theorem concludeTarget_agree (h : p.Agree q) {o o' : Outcome} (hdone : o.Agree o')
    (unit target : BuildUnit) (step : Step) :
    (concludeTarget unit target step p o).Agree (concludeTarget unit target step q o') := by
  have hkept : ∀ actions others, Progress.Agree { p with actions := actions }
      { q with actions := others } := fun _ _ => ⟨h.state, h.dependencies⟩
  unfold concludeTarget
  rcases hdone.cases with ⟨p', q', hp, hq, hpq⟩ | ⟨error, p', q', hp, hq, hpq, herror⟩
  · rw [hp, hq]
    refine .ok ⟨?_, h.dependencies⟩
    simp only [Progress.report, Progress.act, h.state, hpq.state]
  · rw [hp, hq]
    exact .error ((hkept _ _).report _ _) herror

section brackets

variable {work work' : Progress → Outcome}
  (hwork : ∀ p q : Progress, p.Agree q → (work p).Agree (work' q))
include hwork

/-- Forked work between its events agrees if the work does. -/
theorem bracketFork_agree (h : p.Agree q) (unit : BuildUnit) (step : Step) :
    (bracketFork unit step p work).Agree (bracketFork unit step q work') := by
  have hdone := hwork _ _ (h.report (.ofFork unit.id step.display .started)
    (.ofFork unit.id step.display .started))
  unfold bracketFork
  rcases hdone.cases with ⟨p', q', hp, hq, hpq⟩ | ⟨error, p', q', hp, hq, hpq, herror⟩
  · rw [hp, hq]
    exact .ok (hpq.report _ _)
  · rw [hp, hq]
    exact .error (hpq.report _ _) herror

/-- Whether a step is allowed, passed over or refused depends on the settings of the build only,
which agree. -/
theorem whenAllowed_agree (h : p.Agree q) (unit : BuildUnit) (step : Step) (locking : Bool) :
    (x.whenAllowed unit step p work).Agree
      ((x.withLocking locking).whenAllowed unit step q work') := by
  unfold whenAllowed
  rw [show (x.withLocking locking).unmet? step = x.unmet? step from rfl]
  split
  next => exact hwork p q h
  next fault hfault =>
    split
    · exact .error h (not_isConfiguration_unmet hfault unit)
    · exact .ok (h.report _ _)

/-- Forked work on one unit between its events agrees if the work does. -/
theorem bracketTarget_agree (h : p.Agree q) (unit target : BuildUnit) (step : Step)
    (executions : List Execution) :
    (bracketTarget unit target step executions p work).Agree
      (bracketTarget unit target step executions q work') := by
  let inner (p : Progress) : Progress :=
    { state := if target.id = unit.id then p.state.copy else .ofUnit target
      dependencies := .ofExecutions target.id executions
      actions := (p.report (.ofForkedUnit unit.id step.display target.id .started)).actions }
  have hinner : (inner p).Agree (inner q) := by
    refine ⟨?_, rfl⟩
    show (if target.id = unit.id then p.state.copy else _) = _
    rw [h.state]
  have hdone := hwork _ _ hinner
  exact concludeTarget_agree h hdone unit target step

end brackets

/-! ### Lists of executions -/

section lists

variable (hrunner : x.runner.IsLocal) (hresolver : x.resolver.IsLocal) (locking : Bool)
  (lane lane' : Nat)
include hrunner hresolver

mutual

/-- An execution is run alike, whatever the lane and whether or not locks are taken. -/
theorem executeOne_agree (unit : BuildUnit) (depth : Nat) {p q : Progress} (h : p.Agree q) :
    (execution : Execution) → (x.executeOne lane unit depth p execution).Agree
      ((x.withLocking locking).executeOne lane' unit depth q execution)
  | ⟨step, .expanded units⟩ => by
    unfold executeOne
    refine whenAllowed_agree ?_ h unit step locking
    intro p q h
    have hforked : Outcome.Agree
        (if units.isEmpty then (.ok (), p)
        else bracketFork unit step p fun p => x.executeForked lane unit depth step p units)
        (if units.isEmpty then (.ok (), q)
        else bracketFork unit step q fun q =>
          (x.withLocking locking).executeForked lane' unit depth step q units) := by
      split
      · exact .ok h
      · exact bracketFork_agree
          (fun p q h => executeForked_agree unit depth step h units) h unit step
    simp only
    rcases hforked.cases with ⟨p', q', hp, hq, hpq⟩ | ⟨error, p', q', hp, hq, hpq, herror⟩
    · rw [hp, hq]
      exact performStep_agree hrunner locking lane lane' hresolver hpq unit depth step
    · rw [hp, hq]
      exact .error hpq herror
  | ⟨step, .pending⟩ => by
    unfold executeOne
    exact whenAllowed_agree (fun p q h =>
      performStep_agree hrunner locking lane lane' hresolver h unit depth step) h unit step locking
  | ⟨step, .notForking⟩ => by
    unfold executeOne
    exact whenAllowed_agree (fun p q h =>
      performStep_agree hrunner locking lane lane' hresolver h unit depth step) h unit step locking

/-- So is the forked work of a step. -/
theorem executeForked_agree (unit : BuildUnit) (depth : Nat) (step : Step) {p q : Progress}
    (h : p.Agree q) : (units : List (Forked Execution)) →
      (x.executeForked lane unit depth step p units).Agree
        ((x.withLocking locking).executeForked lane' unit depth step q units)
  | [] => by
    unfold executeForked
    exact .ok h
  | ⟨id, executions⟩ :: rest => by
    unfold executeForked
    rw [show (x.withLocking locking).units = x.units from rfl]
    split
    next => exact .error h rfl
    next target _ =>
      have hdone := bracketTarget_agree
        (fun p q h => executeList_agree target (depth + 1) h executions) h unit target step
        executions
      simp only
      rcases hdone.cases with ⟨p', q', hp, hq, hpq⟩ | ⟨error, p', q', hp, hq, hpq, herror⟩
      · rw [hp, hq]
        exact executeForked_agree unit depth step hpq rest
      · rw [hp, hq]
        exact .error hpq herror

/-- So is a list of executions. -/
theorem executeList_agree (unit : BuildUnit) (depth : Nat) {p q : Progress} (h : p.Agree q) :
    (executions : List Execution) → (x.executeList lane unit depth p executions).Agree
      ((x.withLocking locking).executeList lane' unit depth q executions)
  | [] => by
    unfold executeList
    exact .ok h
  | execution :: rest => by
    have hdone := executeOne_agree unit depth h execution
    unfold executeList
    rcases hdone.cases with ⟨p', q', hp, hq, hpq⟩ | ⟨error, p', q', hp, hq, hpq, herror⟩
    · rw [hp, hq]
      have hnext : Progress.Agree
          { p' with state := p'.state.enterPhase execution.step.phase }
          { q' with state := q'.state.enterPhase execution.step.phase } :=
        ⟨congrArg (·.enterPhase execution.step.phase) hpq.state, hpq.dependencies⟩
      exact executeList_agree unit depth hnext rest
    · rw [hp, hq]
      exact .error hpq herror

end

/-- Executions on a unit come to the same on every lane, with and without locks, and never to a
failure of configuration. -/
theorem execute_agree (unit : BuildUnit) (state : UnitState) (executions : List Execution) :
    (x.execute lane unit state executions).1 =
        ((x.withLocking locking).execute lane' unit state executions).1 ∧
      (x.execute lane unit state executions).2.1 =
        ((x.withLocking locking).execute lane' unit state executions).2.1 ∧
      ∀ error, (x.execute lane unit state executions).1 = .error error →
        error.isConfiguration = false := by
  have hdone := executeList_agree hrunner hresolver locking lane lane' unit 0
    (p := ⟨state, .ofExecutions unit.id executions, []⟩) ⟨rfl, rfl⟩ executions
  exact ⟨hdone.result, hdone.progress.state, hdone.not_configuration⟩

end lists

end Executor

end PhasedBuild
