import PhasedBuild.Proofs.Run.Aggregates

/-!
# What is resolved for the unit itself

The first step that needs any scope resolves what the whole list needs, so that no later step of
the list resolves anything for the unit again. A step that is not of the list may need more. Then
all scopes so far are resolved once more together with the new ones, so that the artifacts are
always those of one answer.

* `Dependencies.Fresh`: the artifacts are the answer for the scopes that have been resolved.
* `Dependencies.Fresh.ensure`, `Dependencies.covered_ensure`,
  `Dependencies.required_subset_of_ensure`: what a call for a step keeps and what it achieves.
* `Dependencies.own_requests_of_list`: what a run over the list asks for the unit itself, and what
  any calls after it find.
-/

namespace PhasedBuild

namespace ScopeSet

variable {a b c : ScopeSet}

/-- Scopes are covered by themselves. -/
theorem subset_refl (a : ScopeSet) : a.subset a = true :=
  subset_iff.2 fun _ h => h

/-- What is covered by scopes that are covered is covered. -/
theorem subset_trans (hab : a.subset b = true) (hbc : b.subset c = true) : a.subset c = true :=
  subset_iff.2 fun scope h => subset_iff.1 hbc scope (subset_iff.1 hab scope h)

/-- A union covers its first part. -/
theorem subset_union_left (a b : ScopeSet) : a.subset (a ∪ b) = true :=
  subset_iff.2 fun scope h => by rw [contains_union, h, Bool.true_or]

/-- A union covers its second part. -/
theorem subset_union_right (a b : ScopeSet) : b.subset (a ∪ b) = true :=
  subset_iff.2 fun scope h => by rw [contains_union, h, Bool.or_true]

/-- Adding scopes that are covered adds nothing. -/
theorem union_eq_left (h : b.subset a = true) : a ∪ b = a := by
  rw [union_comm, union_eq_right h]

/-- The empty set is covered by every set. -/
theorem empty_subset (a : ScopeSet) : empty.subset a = true :=
  subset_iff.2 fun _ h => absurd h Bool.false_ne_true

/-- Adding scopes to the empty set leaves just them. -/
theorem empty_union (a : ScopeSet) : empty ∪ a = a :=
  union_eq_right (empty_subset a)

/-- A set of scopes is empty exactly if the empty set covers it. -/
theorem isEmpty_iff_subset_empty : a.isEmpty = true ↔ a.subset empty = true := by
  refine ⟨subset_of_isEmpty, fun h => ?_⟩
  rw [isEmpty, List.isEmpty_iff, List.eq_nil_iff_forall_not_mem]
  intro scope hscope
  exact absurd (subset_iff.1 h scope (mem_toList.1 hscope)) Bool.false_ne_true

/-- It does not matter in which order unions are taken. -/
theorem union_assoc (a b c : ScopeSet) : a ∪ b ∪ c = a ∪ (b ∪ c) := by
  ext scope
  simp only [contains_union, Bool.or_assoc]

/-- The union of a list covers each of its members. -/
theorem subset_unionOf {sets : List ScopeSet} (h : a ∈ sets) : a.subset (unionOf sets) = true := by
  induction sets with
  | nil => cases h
  | cons set rest ih =>
    cases h with
    | head => exact subset_union_left _ _
    | tail _ hrest => exact subset_trans (ih hrest) (subset_union_right _ _)

/-- Gathering scopes one item at a time comes to their union. -/
theorem foldl_union_eq {α : Type} (f : α → ScopeSet) (items : List α) (start : ScopeSet) :
    items.foldl (fun scopes item => scopes ∪ f item) start = start ∪ unionOf (items.map f) := by
  induction items generalizing start with
  | nil => exact (union_eq_left (empty_subset start)).symm
  | cons item rest ih =>
    rw [List.foldl_cons, ih, union_assoc]
    rfl

end ScopeSet

/-- The resolver with some answers, which do not depend on the requests before. -/
def Resolver.ofAnswers (answer : BuildUnit → ScopeSet → Except (List String) (List String)) :
    Resolver :=
  fun _ => answer

namespace Dependencies

variable {resolver : Resolver} {units : UnitGraph} {unit : BuildUnit} {d : Dependencies}
  {history : List ResolveRequest} {required : ScopeSet}
  {answer : BuildUnit → ScopeSet → Except (List String) (List String)}

/-- The scopes that have been resolved for the unit, none at first. -/
def covered (d : Dependencies) : ScopeSet :=
  d.resolved.getD .empty

/-- The scopes that are asked for when some are needed that are not covered. -/
def wanted (d : Dependencies) (required : ScopeSet) : ScopeSet :=
  d.covered ∪ d.pending ∪ required

/-- What is known of the unit itself. -/
def own (d : Dependencies) : ScopeSet × Option ScopeSet × List String :=
  (d.pending, d.resolved, d.artifacts)

/-- The requests that are made for one unit. -/
def requestsFor (id : String) (requests : List ResolveRequest) : List ResolveRequest :=
  requests.filter (·.unit == id)

/-- The requests for a unit among two lists are those of the first and then those of the second. -/
theorem requestsFor_append (id : String) (first second : List ResolveRequest) :
    requestsFor id (first ++ second) = requestsFor id first ++ requestsFor id second :=
  List.filter_append ..

/-- What is known to be needed at the start is all that the steps of the list need. -/
theorem pending_ofExecutions (id : String) (executions : List Execution) :
    (ofExecutions id executions).pending =
      .unionOf ((executions.map (·.step)).map (·.requiredScopes)) := by
  rw [List.map_map]
  exact (ScopeSet.foldl_union_eq _ executions .empty).trans (ScopeSet.empty_union _)

/-! ### The other units -/

/-- Resolving scopes for other units changes nothing about the unit. -/
theorem own_resolveOthers (required : ScopeSet) (d : Dependencies)
    (history : List ResolveRequest) (others : List BuildUnit) :
    (resolveOthers resolver required d history others).dependencies.own = d.own := by
  induction others generalizing d history with
  | nil => rfl
  | cons other rest ih =>
    unfold resolveOthers
    split
    next => rfl
    next => exact ih _ _

/-- It asks for nothing but those units. -/
theorem mem_of_mem_resolveOthers (required : ScopeSet) (d : Dependencies)
    (history : List ResolveRequest) (others : List BuildUnit) :
    ∀ request ∈ (resolveOthers resolver required d history others).requests,
      request.unit ∈ others.map (·.id) := by
  induction others generalizing d history with
  | nil => exact fun _ h => nomatch h
  | cons other rest ih =>
    unfold resolveOthers
    split
    next => simp
    next =>
      intro request hrequest
      cases hrequest with
      | head => exact List.mem_cons_self
      | tail _ hrest => exact List.mem_cons_of_mem _ (ih _ _ request hrest)

/-- Resolving for the other units makes no request for the unit itself. -/
theorem requestsFor_resolveOthers (required : ScopeSet) (d : Dependencies)
    (history : List ResolveRequest) :
    requestsFor unit.id (resolveOthers resolver required d history
      (units.sorted.filter (·.id != unit.id))).requests = [] := by
  refine List.filter_eq_nil_iff.2 fun request hrequest heq => ?_
  obtain ⟨-, hne⟩ := UnitGraph.mem_other_ids_iff.1 (mem_of_mem_resolveOthers _ _ _ _ _ hrequest)
  exact hne (beq_iff_eq.1 heq)

/-! ### The unit itself -/

/-- Nothing needs to be resolved exactly if all that is needed has been. -/
theorem needsResolution_eq_false_iff :
    d.needsResolution required = false ↔ required.subset d.covered = true := by
  unfold needsResolution covered
  cases d.resolved with
  | none => simpa using ScopeSet.isEmpty_iff_subset_empty
  | some resolved => simp

/-- What resolving scopes for the unit comes to: they are covered, or all that is known to be
needed is asked for. -/
inductive Resolves (resolver : Resolver) (history : List ResolveRequest) (unit : BuildUnit)
    (required : ScopeSet) (d : Dependencies) : Ensured → Prop where
  | covered (hsub : required.subset d.covered = true) :
      Resolves resolver history unit required d ⟨.ok (), d, []⟩
  | refused {reasons : List String} (hneeds : d.needsResolution required = true)
      (hanswer : resolver history unit (d.wanted required) = .error reasons) :
      Resolves resolver history unit required d
        ⟨.error reasons, d, [⟨unit.id, (d.wanted required).toList⟩]⟩
  | granted {artifacts : List String} (hneeds : d.needsResolution required = true)
      (hanswer : resolver history unit (d.wanted required) = .ok artifacts) :
      Resolves resolver history unit required d
        ⟨.ok (), { d with
          artifacts, resolved := some (d.wanted required), resolutions := d.resolutions + 1 },
          [⟨unit.id, (d.wanted required).toList⟩]⟩

/-- Resolving scopes for a unit makes no request if they are covered, and else a single one for all
that is known to be needed. -/
theorem resolves_resolveUnit (resolver : Resolver) (history : List ResolveRequest)
    (unit : BuildUnit) (required : ScopeSet) (d : Dependencies) :
    Resolves resolver history unit required d
      (d.resolveUnit resolver history unit required) := by
  unfold resolveUnit
  split
  next hneeds =>
    simp only
    split
    next reasons hanswer => exact .refused hneeds hanswer
    next artifacts hanswer => exact .granted hneeds hanswer
  next hneeds => exact .covered (needsResolution_eq_false_iff.1 (Bool.not_eq_true _ ▸ hneeds))

/-- All requests that are made to resolve scopes for the unit itself are for that unit. -/
theorem Resolves.requestsFor_eq {own : Ensured}
    (h : Resolves resolver history unit required d own) :
    requestsFor unit.id own.requests = own.requests := by
  cases h with
  | covered => rfl
  | refused => simp [requestsFor]
  | granted => simp [requestsFor]

/-- A call for a step does for the unit what resolving the scopes of the step for it does. -/
theorem exists_resolves_of_ensure (resolver : Resolver) (history : List ResolveRequest)
    (units : UnitGraph) (unit : BuildUnit) (d : Dependencies) (step : Step) :
    let call := d.ensure resolver history units unit step
    ∃ own, Resolves resolver history unit step.requiredScopes d own ∧
      call.dependencies.own = own.dependencies.own ∧
      requestsFor unit.id call.requests = own.requests ∧
      (call.result = .ok () → own.result = .ok ()) := by
  have hresolves := resolves_resolveUnit resolver history unit step.requiredScopes d
  have hrequests := hresolves.requestsFor_eq
  refine ⟨_, hresolves, ?_⟩
  unfold ensure
  simp only
  split
  next reasons heq => exact ⟨rfl, hrequests, id⟩
  next heq =>
    split
    next =>
      refine ⟨own_resolveOthers _ _ _ _, ?_, fun _ => heq⟩
      rw [requestsFor_append, requestsFor_resolveOthers, List.append_nil, hrequests]
    next => exact ⟨rfl, hrequests, id⟩

/-! ### One call -/

/-- Which scopes are covered depends on what is known of the unit itself only. -/
theorem covered_eq_of_own_eq {d e : Dependencies} (h : d.own = e.own) : d.covered = e.covered :=
  congrArg (fun own => own.2.1.getD .empty) h

/-- A step that needs nothing makes no request. -/
theorem ensure_of_isEmpty {step : Step} (h : step.requiredScopes.isEmpty = true) :
    d.ensure resolver history units unit step = ⟨.ok (), d, []⟩ := by
  have hown : d.needsResolution step.requiredScopes = false :=
    needsResolution_eq_false_iff.2 (ScopeSet.subset_of_isEmpty h)
  have hothers : d.needsAggregateResolution step.requiredScopes = false := by
    rw [needsAggregateResolution_eq, ScopeSet.subset_of_isEmpty h]
    rfl
  simp [ensure, resolveUnit, hown, hothers]

/-- What has been resolved stays so. -/
theorem covered_ensure (step : Step) :
    d.covered.subset (d.ensure resolver history units unit step).dependencies.covered = true := by
  obtain ⟨own, hresolves, hown, -, -⟩ :=
    exists_resolves_of_ensure resolver history units unit d step
  rw [covered_eq_of_own_eq hown]
  cases hresolves with
  | covered => exact ScopeSet.subset_refl _
  | refused => exact ScopeSet.subset_refl _
  | granted =>
    exact ScopeSet.subset_trans (ScopeSet.subset_union_left _ _) (ScopeSet.subset_union_left _ _)

/-- A step that gets what it needs finds it among what has been resolved. -/
theorem required_subset_of_ensure {step : Step}
    (hok : (d.ensure resolver history units unit step).result = .ok ()) :
    step.requiredScopes.subset
      (d.ensure resolver history units unit step).dependencies.covered = true := by
  obtain ⟨own, hresolves, hown, -, hresult⟩ :=
    exists_resolves_of_ensure resolver history units unit d step
  rw [covered_eq_of_own_eq hown]
  cases hresolves with
  | covered hsub => exact hsub
  | refused => cases hresult hok
  | granted => exact ScopeSet.subset_union_right _ _

/-- The artifacts of the unit are the answer for all scopes that have been resolved for it. -/
def Fresh (answer : BuildUnit → ScopeSet → Except (List String) (List String)) (unit : BuildUnit)
    (d : Dependencies) : Prop :=
  ∀ scopes, d.resolved = some scopes → answer unit scopes = .ok d.artifacts

namespace Fresh

/-- At the start nothing has been resolved for the unit, so there is no answer that could be out of
date. -/
theorem ofExecutions (id : String) (executions : List Execution) :
    Fresh answer unit (ofExecutions id executions) :=
  fun _ h => nomatch h

/-- Whether the artifacts are up to date depends on what is known of the unit itself only. -/
theorem of_own_eq {d e : Dependencies} (h : Fresh answer unit e) (heq : d.own = e.own) :
    Fresh answer unit d := by
  intro scopes hscopes
  have hresolved : d.resolved = e.resolved := congrArg (·.2.1) heq
  have hartifacts : d.artifacts = e.artifacts := congrArg (·.2.2) heq
  rw [hartifacts]
  exact h scopes (hresolved ▸ hscopes)

/-- The artifacts of the unit stay up to date when the needs of a step are resolved. -/
theorem ensure (h : Fresh answer unit d) (step : Step) :
    Fresh answer unit
      (d.ensure (.ofAnswers answer) history units unit step).dependencies := by
  obtain ⟨own, hresolves, hown, -, -⟩ :=
    exists_resolves_of_ensure (.ofAnswers answer) history units unit d step
  refine of_own_eq ?_ hown
  cases hresolves with
  | covered => exact h
  | refused => exact h
  | granted _ hanswer =>
    intro scopes hscopes
    cases hscopes
    exact hanswer

end Fresh

/-! ### Runs -/

/-- What there is after calls for some steps, of which any may fail, together with all requests up
to there. -/
def calls (resolver : Resolver) (units : UnitGraph) (unit : BuildUnit) (d : Dependencies)
    (history : List ResolveRequest) : List Step → Dependencies × List ResolveRequest
  | [] => (d, history)
  | step :: rest =>
    let first := d.ensure resolver history units unit step
    first.dependencies.calls resolver units unit (history ++ first.requests) rest

/-- The artifacts of the unit stay up to date through calls for any steps, whether they fail or
not. -/
theorem Fresh.calls (h : Fresh answer unit d) (history : List ResolveRequest)
    (steps : List Step) :
    Fresh answer unit (d.calls (.ofAnswers answer) units unit history steps).1 := by
  induction steps generalizing d history with
  | nil => exact h
  | cons step rest ih => exact ih (h.ensure step) _

/-- The artifacts of the unit stay up to date when the needs of steps are resolved up to the first
that fails. -/
theorem Fresh.ensureAll (h : Fresh answer unit d) (history : List ResolveRequest)
    (steps : List Step) :
    Fresh answer unit
      (d.ensureAll (.ofAnswers answer) history units unit steps).dependencies := by
  induction steps generalizing d history with
  | nil => exact h
  | cons step rest ih =>
    unfold Dependencies.ensureAll
    simp only
    split
    next => exact h.ensure step
    next => exact ih (h.ensure step) _

/-- Steps whose needs are covered ask for nothing on the unit, and nothing about it changes. -/
theorem ensureAll_of_covered (resolver : Resolver) (units : UnitGraph) (unit : BuildUnit)
    (history : List ResolveRequest) {steps : List Step}
    (h : ∀ step ∈ steps, step.requiredScopes.subset d.covered = true) :
    requestsFor unit.id (d.ensureAll resolver history units unit steps).requests = [] ∧
      (d.ensureAll resolver history units unit steps).dependencies.own = d.own := by
  induction steps generalizing d history with
  | nil => exact ⟨rfl, rfl⟩
  | cons step rest ih =>
    obtain ⟨hstep, hrest⟩ := List.forall_mem_cons.1 h
    obtain ⟨own, hresolves, hown, hrequests, -⟩ :=
      exists_resolves_of_ensure resolver history units unit d step
    obtain ⟨hown, hrequests⟩ :
        (d.ensure resolver history units unit step).dependencies.own = d.own ∧
          requestsFor unit.id (d.ensure resolver history units unit step).requests = [] := by
      rw [hown, hrequests]
      cases hresolves with
      | covered => exact ⟨rfl, rfl⟩
      | refused hneeds => exact absurd (needsResolution_eq_false_iff.2 hstep) (by simp [hneeds])
      | granted hneeds => exact absurd (needsResolution_eq_false_iff.2 hstep) (by simp [hneeds])
    rw [← covered_eq_of_own_eq hown] at hrest
    obtain ⟨ihrequests, ihown⟩ :=
      ih (history ++ (d.ensure resolver history units unit step).requests) hrest
    unfold ensureAll
    simp only
    split
    next => exact ⟨hrequests, hown⟩
    next => exact ⟨by rw [requestsFor_append, hrequests, ihrequests]; rfl, ihown.trans hown⟩

/-- The first of some steps that needs anything asks for all that is pending, and no step whose
need is part of this asks again. -/
theorem ensureAll_of_unresolved (resolver : Resolver) (units : UnitGraph) (unit : BuildUnit)
    (history : List ResolveRequest) {steps : List Step} (hresolved : d.resolved = none)
    (h : ∀ step ∈ steps, step.requiredScopes.subset d.pending = true) :
    let run := d.ensureAll resolver history units unit steps
    let idle := steps.all (·.requiredScopes.isEmpty)
    requestsFor unit.id run.requests =
        (if idle then [] else [⟨unit.id, d.pending.toList⟩]) ∧
      (run.result = .ok () →
        run.dependencies.resolved = if idle then none else some d.pending) := by
  induction steps generalizing history with
  | nil => exact ⟨rfl, fun _ => hresolved⟩
  | cons step rest ih =>
    obtain ⟨hstep, hrest⟩ := List.forall_mem_cons.1 h
    cases hempty : step.requiredScopes.isEmpty with
    | true =>
      simp only [ensureAll, ensure_of_isEmpty hempty, List.all_cons, hempty, Bool.true_and,
        List.nil_append]
      exact ih (history ++ []) hrest
    | false =>
      obtain ⟨own, hresolves, hown, hrequests, hresult⟩ :=
        exists_resolves_of_ensure resolver history units unit d step
      have hwanted : d.wanted step.requiredScopes = d.pending := by
        rw [wanted, covered, hresolved, Option.getD_none, ScopeSet.empty_union,
          ScopeSet.union_eq_left hstep]
      have huncovered : ¬ step.requiredScopes.subset d.covered = true := by
        rw [covered, hresolved, Option.getD_none, ← ScopeSet.isEmpty_iff_subset_empty, hempty]
        exact Bool.false_ne_true
      simp only [ensureAll, List.all_cons, hempty, Bool.false_and, Bool.false_eq_true, if_false]
      cases hresolves with
      | covered hsub => exact absurd hsub huncovered
      | refused =>
        rw [hwanted] at hrequests
        split
        next reasons heq =>
          refine ⟨hrequests, fun hok => ?_⟩
          cases heq.symm.trans hok
        next heq => cases hresult heq
      | granted =>
        rw [hwanted] at hrequests hown
        -- All that is pending is covered from here on.
        have hlater : ∀ later ∈ rest, later.requiredScopes.subset
            (d.ensure resolver history units unit step).dependencies.covered = true := by
          rw [covered_eq_of_own_eq hown]
          exact hrest
        split
        next reasons heq =>
          refine ⟨hrequests, fun hok => ?_⟩
          cases heq.symm.trans hok
        next heq =>
          obtain ⟨hnone, hsame⟩ := ensureAll_of_covered resolver units unit
            (history ++ (d.ensure resolver history units unit step).requests) hlater
          refine ⟨by rw [requestsFor_append, hrequests, hnone]; rfl, fun _ => ?_⟩
          exact congrArg (·.2.1) (hsame.trans hown)

/-- A run over the steps of a list, as far as it comes, asks nothing for the unit itself before the
first step that needs any scope. That step asks for the scopes that the whole list needs, and no
later step asks again. Calls for any further steps, of which any may fail, keep what has been
resolved. A call that succeeds leaves all that its step needs resolved, and what has been resolved
comes with the answer for all of it. -/
theorem own_requests_of_list
    (answer : BuildUnit → ScopeSet → Except (List String) (List String)) (units : UnitGraph)
    (unit : BuildUnit) (executions : List Execution) (history : List ResolveRequest)
    (steps : List Step) (hsteps : steps <+: executions.map (·.step)) :
    let whole := ScopeSet.unionOf ((executions.map (·.step)).map (·.requiredScopes))
    let run := (ofExecutions unit.id executions).ensureAll (.ofAnswers answer) history units unit
      steps
    let idle := steps.all (·.requiredScopes.isEmpty)
    requestsFor unit.id run.requests = (if idle then [] else [⟨unit.id, whole.toList⟩]) ∧
      (run.result = .ok () →
        run.dependencies.resolved = if idle then none else some whole) ∧
      ∀ (further : List Step) (step : Step),
        let now := run.dependencies.calls (.ofAnswers answer) units unit
          (history ++ run.requests) further
        let call := now.1.ensure (.ofAnswers answer) now.2 units unit step
        (call.result = .ok () →
          step.requiredScopes.subset (call.dependencies.resolved.getD .empty) = true) ∧
        (now.1.resolved.getD .empty).subset (call.dependencies.resolved.getD .empty) = true ∧
        ∀ scopes, call.dependencies.resolved = some scopes →
          answer unit scopes = .ok call.dependencies.artifacts := by
  intro whole run idle
  have hwhole : (ofExecutions unit.id executions).pending = whole := pending_ofExecutions _ _
  have hcovered : ∀ step ∈ steps, step.requiredScopes.subset
      (ofExecutions unit.id executions).pending = true := by
    intro step hstep
    rw [hwhole]
    exact ScopeSet.subset_unionOf (List.mem_map_of_mem (hsteps.subset hstep))
  obtain ⟨hrequests, hresolved⟩ :=
    ensureAll_of_unresolved (.ofAnswers answer) units unit history rfl hcovered
  rw [hwhole] at hrequests hresolved
  refine ⟨hrequests, hresolved, fun further step => ⟨required_subset_of_ensure,
    covered_ensure step, ?_⟩⟩
  have hfresh : Fresh answer unit run.dependencies :=
    (Fresh.ofExecutions unit.id executions).ensureAll history steps
  exact (hfresh.calls _ further).ensure step

/-- The executions of a list whose steps need artifacts to compile, then those at run time. -/
def gatheringExecutions : List Execution :=
  gatheringSteps.map fun step => { step }

/-- Answers with the names of the scopes. -/
def scopeNames (_ : BuildUnit) (scopes : ScopeSet) : Except (List String) (List String) :=
  .ok (scopes.toList.map (·.name))

/-- The two steps resolve their scopes at once, although each also works on the other units. A step
from outside the list needs one scope more, and all of them are resolved anew. -/
theorem own_requests_of_gatheringSteps :
    let run := (ofExecutions "app" gatheringExecutions).ensureAll (.ofAnswers scopeNames) []
      .provision { id := "app" } gatheringSteps
    let call := run.dependencies.ensure (.ofAnswers scopeNames) run.requests .provision
      { id := "app" } (.gathering "test" .test)
    gatheringSteps <+: gatheringExecutions.map (·.step) ∧
      requestsFor "app" run.requests = [⟨"app", [.compile, .provided, .runtime, .system]⟩] ∧
      call.result = .ok () ∧
      ResolutionScope.test.scopes.subset (call.dependencies.resolved.getD .empty) = true := by
  intro run call
  have hpre : gatheringSteps <+: gatheringExecutions.map (·.step) := ⟨[], rfl⟩
  obtain ⟨hrequests, -, hfurther⟩ :=
    own_requests_of_list scopeNames .provision { id := "app" } gatheringExecutions [] _ hpre
  obtain ⟨hcovered, -, -⟩ := hfurther [] (.gathering "test" .test)
  have hok : call.result = .ok () := rfl
  have hscopes := hcovered hok
  rw [Step.requiredScopes_gathering] at hscopes
  exact ⟨hpre, hrequests, hok, hscopes⟩

end Dependencies

end PhasedBuild
