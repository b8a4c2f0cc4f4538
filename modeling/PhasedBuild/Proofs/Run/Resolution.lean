import PhasedBuild.Run.Dependencies

/-!
# How requests are answered

What a step needs is resolved by requests, one after the other, up to the first that is refused. An
answer may depend on the requests before it.

* `EachAfter`: each item of a list stands in a relation to the items before it.
* `Resolver.Answers` is the result that goes with a list of requests: all of them are granted, or
  the last one is refused.
* `Dependencies.answers_ensure`: so it is when the needs of a step are resolved.
-/

namespace PhasedBuild

/-- Each item of a list stands in a relation to all items before it, in this list and in what came
before the list. -/
def EachAfter {α : Type} (P : List α → α → Prop) (before : List α) : List α → Prop
  | [] => True
  | item :: rest => P before item ∧ EachAfter P (before ++ [item]) rest

section eachAfter

variable {α : Type} {P Q : List α → α → Prop} {before : List α}

/-- A list may be cut: each item of its second part comes after all of the first part as well. -/
theorem eachAfter_append {first second : List α} : EachAfter P before (first ++ second) ↔
    EachAfter P before first ∧ EachAfter P (before ++ first) second := by
  induction first generalizing before with
  | nil => simp [EachAfter]
  | cons item rest ih =>
    show (_ ∧ EachAfter P (before ++ [item]) (rest ++ second)) ↔ (_ ∧ _) ∧ _
    rw [ih, and_assoc, List.append_assoc]
    rfl

/-- A relation may be replaced by a weaker one. -/
theorem EachAfter.imp (himp : ∀ before item, P before item → Q before item) {items : List α}
    (h : EachAfter P before items) : EachAfter Q before items := by
  induction items generalizing before with
  | nil => trivial
  | cons item rest ih => exact ⟨himp _ _ h.1, ih h.2⟩

/-- Every item of the list stands in the relation to some items before it. -/
theorem EachAfter.exists_of_mem {items : List α} {item : α} (h : EachAfter P before items)
    (hitem : item ∈ items) : ∃ earlier, P earlier item := by
  induction items generalizing before with
  | nil => cases hitem
  | cons first rest ih =>
    rcases List.mem_cons.1 hitem with rfl | hitem
    · exact ⟨before, h.1⟩
    · exact ih h.2 hitem

end eachAfter

/-- A set of scopes is that of the list of its scopes. -/
theorem ScopeSet.ofList_toList (set : ScopeSet) : ofList set.toList = set := by
  have hcontains : ∀ scope, set.toList.contains scope = set.contains scope := by
    intro scope
    rw [Bool.eq_iff_iff, List.contains_iff_mem, mem_toList]
  exact congrArg ScopeSet.mk (funext hcontains)

namespace Resolver

variable (resolver : Resolver) (units : List BuildUnit)

/-- A request for one of the units is answered with artifacts, after others. -/
def Grants (history : List ResolveRequest) (request : ResolveRequest) : Prop :=
  ∃ unit ∈ units, unit.id = request.unit ∧
    ∃ artifacts, resolver history unit (.ofList request.scopes) = .ok artifacts

/-- A request for one of the units is refused, after others. -/
def Refuses (history : List ResolveRequest) (request : ResolveRequest) (reasons : List String) :
    Prop :=
  ∃ unit ∈ units, unit.id = request.unit ∧
    resolver history unit (.ofList request.scopes) = .error reasons

/-- The result that goes with requests, which come after others. -/
inductive Answers (history : List ResolveRequest) :
    Except (List String) Unit → List ResolveRequest → Prop where
  | granted {requests : List ResolveRequest}
      (hgranted : EachAfter (resolver.Grants units) history requests) :
      Answers history (.ok ()) requests
  | refused {requests : List ResolveRequest} {request : ResolveRequest} {reasons : List String}
      (hgranted : EachAfter (resolver.Grants units) history requests)
      (hrefused : resolver.Refuses units (history ++ requests) request reasons) :
      Answers history (.error reasons) (requests ++ [request])

variable {resolver units} {history : List ResolveRequest} {unit : BuildUnit} {scopes : ScopeSet}

/-- An answer with artifacts grants the request. -/
theorem grants_of_eq_ok (hunit : unit ∈ units) {artifacts : List String}
    (h : resolver history unit scopes = .ok artifacts) :
    resolver.Grants units history ⟨unit.id, scopes.toList⟩ :=
  ⟨unit, hunit, rfl, artifacts, by rw [ScopeSet.ofList_toList, h]⟩

/-- A request that gets no artifacts is the last one, and the result has its reasons. -/
theorem answers_of_eq_error (hunit : unit ∈ units) {reasons : List String}
    (h : resolver history unit scopes = .error reasons) :
    resolver.Answers units history (.error reasons) [⟨unit.id, scopes.toList⟩] := by
  have hrefused : resolver.Refuses units (history ++ []) ⟨unit.id, scopes.toList⟩ reasons :=
    ⟨unit, hunit, rfl, by rw [ScopeSet.ofList_toList, List.append_nil, h]⟩
  have hanswers : resolver.Answers units history (.error reasons)
      ([] ++ [⟨unit.id, scopes.toList⟩]) := .refused trivial hrefused
  exact hanswers

namespace Answers

/-- Requests after requests that have been granted. -/
theorem append {requests others : List ResolveRequest} {result : Except (List String) Unit}
    (hgranted : EachAfter (resolver.Grants units) history requests)
    (h : resolver.Answers units (history ++ requests) result others) :
    resolver.Answers units history result (requests ++ others) := by
  cases h with
  | granted hothers => exact .granted (eachAfter_append.2 ⟨hgranted, hothers⟩)
  | refused hothers hrefused =>
    rw [← List.append_assoc]
    rw [List.append_assoc] at hrefused
    exact .refused (eachAfter_append.2 ⟨hgranted, hothers⟩) hrefused

/-- If the result is a success, all requests were granted. -/
theorem granted_of_ok {requests : List ResolveRequest}
    (h : resolver.Answers units history (.ok ()) requests) :
    EachAfter (resolver.Grants units) history requests := by
  cases h with
  | granted hgranted => exact hgranted

/-- If the result is a failure, the last request was refused with its reasons and all those before
it were granted. -/
theorem exists_of_error {requests : List ResolveRequest} {reasons : List String}
    (h : resolver.Answers units history (.error reasons) requests) :
    ∃ earlier request, requests = earlier ++ [request] ∧
      EachAfter (resolver.Grants units) history earlier ∧
      resolver.Refuses units (history ++ earlier) request reasons := by
  cases h with
  | refused hgranted hrefused => exact ⟨_, _, rfl, hgranted, hrefused⟩

/-- Granted or refused, a request is for artifacts of one of the units. -/
theorem mem_ids {requests : List ResolveRequest} {result : Except (List String) Unit}
    (h : resolver.Answers units history result requests) :
    ∀ request ∈ requests, request.unit ∈ units.map (·.id) := by
  have hgrants : ∀ {requests : List ResolveRequest},
      EachAfter (resolver.Grants units) history requests →
        ∀ request ∈ requests, request.unit ∈ units.map (·.id) := by
    intro requests hgranted request hrequest
    obtain ⟨_, unit, hunit, hid, -⟩ := hgranted.exists_of_mem hrequest
    exact List.mem_map.2 ⟨unit, hunit, hid⟩
  cases h with
  | granted hgranted => exact hgrants hgranted
  | refused hgranted hrefused =>
    obtain ⟨unit, hunit, hid, -⟩ := hrefused
    intro request hrequest
    rcases List.mem_append.1 hrequest with hearlier | hlast
    · exact hgrants hgranted request hearlier
    · rw [List.mem_singleton.1 hlast]
      exact List.mem_map.2 ⟨unit, hunit, hid⟩

/-- What is known of some units is known of more. -/
theorem mono {others : List BuildUnit} (hsub : units ⊆ others) {requests : List ResolveRequest}
    {result : Except (List String) Unit}
    (h : resolver.Answers units history result requests) :
    resolver.Answers others history result requests := by
  have hgrants : ∀ history request, resolver.Grants units history request →
      resolver.Grants others history request :=
    fun _ _ ⟨unit, hunit, hanswer⟩ => ⟨unit, hsub hunit, hanswer⟩
  cases h with
  | granted hgranted => exact .granted (hgranted.imp hgrants)
  | refused hgranted hrefused =>
    obtain ⟨unit, hunit, hanswer⟩ := hrefused
    exact .refused (hgranted.imp hgrants) ⟨unit, hsub hunit, hanswer⟩

end Answers

end Resolver

namespace Dependencies

variable {resolver : Resolver} {units : List BuildUnit} (d : Dependencies)
  (history : List ResolveRequest) (required : ScopeSet)

/-- What comes of resolving scopes for the unit itself is the answer to the requests that it
makes. -/
theorem answers_resolveUnit {unit : BuildUnit} (hunit : unit ∈ units) :
    resolver.Answers units history (d.resolveUnit resolver history unit required).result
      (d.resolveUnit resolver history unit required).requests := by
  unfold resolveUnit
  split
  next =>
    simp only
    split
    next hanswer => exact Resolver.answers_of_eq_error hunit hanswer
    next hanswer => exact .granted ⟨Resolver.grants_of_eq_ok hunit hanswer, trivial⟩
  next => exact .granted trivial

/-- What comes of resolving scopes for other units is the answer to the requests that it makes. -/
theorem answers_resolveOthers {others : List BuildUnit} (hothers : others ⊆ units) :
    resolver.Answers units history (resolveOthers resolver required d history others).result
      (resolveOthers resolver required d history others).requests := by
  induction others generalizing d history with
  | nil => exact .granted trivial
  | cons other rest ih =>
    obtain ⟨hother, hrest⟩ := List.cons_subset.1 hothers
    unfold resolveOthers
    simp only
    split
    next hanswer => exact Resolver.answers_of_eq_error hother hanswer
    next hanswer =>
      have hgranted : EachAfter (resolver.Grants units) history [⟨other.id, required.toList⟩] :=
        ⟨Resolver.grants_of_eq_ok hother hanswer, trivial⟩
      exact .append hgranted (ih _ _ hrest)

/-- What a step needs is asked for the unit itself and for the units of the build, up to the first
request that is refused. -/
theorem answers_ensure (graph : UnitGraph) (unit : BuildUnit) (step : Step) :
    resolver.Answers (unit :: graph.sorted) history
      (d.ensure resolver history graph unit step).result
      (d.ensure resolver history graph unit step).requests := by
  have hown : resolver.Answers (unit :: graph.sorted) history
      (d.resolveUnit resolver history unit step.requiredScopes).result
      (d.resolveUnit resolver history unit step.requiredScopes).requests :=
    d.answers_resolveUnit history step.requiredScopes List.mem_cons_self
  unfold ensure
  simp only
  split
  next => exact hown
  next heq =>
    split
    next =>
      rw [heq] at hown
      exact .append hown.granted_of_ok (answers_resolveOthers _ _ _ fun _ hother =>
        List.mem_cons_of_mem _ (List.mem_filter.1 hother).1)
    next => exact hown

end Dependencies

end PhasedBuild
