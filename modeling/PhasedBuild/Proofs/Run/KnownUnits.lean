import PhasedBuild.Proofs.Plan.Shape
import PhasedBuild.Proofs.Run.Agenda
import PhasedBuild.Proofs.Units.Dependence

/-!
# Work among the units of a build

An executor looks units up by their ids: those on which a step forks work, and, if it goes by the
graph, those whose artifacts are asked for. A plan that has been made for a unit of the build names
no other units, so the lookups find what they look for.

* `Execution.StaysWithin`: an execution forks work on units of the build only, at any depth.
* `Fault.HindersWork`: what can go wrong with such work.
* `Action.KeepsTo`: what such work asks for and complains about.
* `Executor.rules_keepsTo`: what a step of the work preserves; hence `Executor.execute_keepsTo`.
-/

namespace PhasedBuild

/-! ### Executions -/

namespace Execution

variable {units : UnitGraph} {id : String} {e : Execution}

/-- The units on which an execution on a unit forks work, at any depth, are units of the build. -/
def StaysWithin (units : UnitGraph) (id : String) (e : Execution) : Prop :=
  ∀ turns id' place, e.Reaches id turns id' place →
    ∀ entry ∈ place.forkedUnits, entry.unit ∈ units.ids

/-- The units of the work that an execution forks itself are units of the build. -/
theorem StaysWithin.mem_ids (h : e.StaysWithin units id) {entry : Forked Execution}
    (hentry : entry ∈ e.forkedUnits) : entry.unit ∈ units.ids :=
  h [] id e (.self id e) entry hentry

/-- The executions that are forked on a unit stay within the build as well. -/
theorem StaysWithin.inner (h : e.StaysWithin units id) {entry : Forked Execution}
    (hentry : entry ∈ e.forkedUnits) :
    ∀ inner ∈ entry.executions, inner.StaysWithin units entry.unit := by
  intro inner hinner turns id' place hplace
  obtain ⟨before, after, hcut⟩ := List.append_of_mem hinner
  have hforked : ⟨entry.unit, before ++ inner :: after⟩ ∈ e.forkedUnits := by
    rw [← hcut]
    exact hentry
  exact h _ id' place (.fork hforked hplace)

end Execution

/-- What is expanded on a unit of the build stays within the build. -/
theorem Planner.Expands.staysWithin {units : UnitGraph} {guard : ForkGuard} {unit : BuildUnit}
    {step : Step} {e : Execution} (h : Planner.Expands OffersForked units guard unit step e)
    (hunit : unit ∈ units.units) : e.StaysWithin units unit.id := by
  intro turns id place hplace entry hentry
  obtain ⟨inner, here, -, hamong, hexpands, -⟩ := h.of_reaches rfl hplace
  have hhere : here.id ∈ units.ids := by
    rcases hamong with rfl | hmem
    · exact List.mem_map_of_mem hunit
    · exact List.mem_map_of_mem hmem
  rcases (hexpands.isExpanded.reached entry hentry).2 with hown | hother
  · exact hown ▸ hhere
  · exact hother

/-! ### What can go wrong -/

/-- Why work on units of a build can fail: its settings do not allow a step, a step fails, or the
artifacts that a unit of the build needs are refused. -/
inductive Fault.HindersWork (units : UnitGraph) (resolver : Resolver) : Fault → Prop
  | project : HindersWork units resolver .needsProject
  | network : HindersWork units resolver .needsNetwork
  | step (step unit : String) (reasons : List String) :
    HindersWork units resolver (.failedStep step unit reasons)
  | artifacts (unit : String) {history : List ResolveRequest} {request : ResolveRequest}
    {reasons : List String} (hrefused : resolver.Refuses units.units history request reasons) :
    HindersWork units resolver (.unresolvedDependencies unit reasons)

/-- What an event says went wrong, or why something was left undone. -/
def Event.complaint? : Event → Option String
  | .ofUnit _ _ (.failed error) => some error
  | .ofUnit _ _ (.skipped reason) => some reason
  | .ofStep _ _ (.failed error) => some error
  | .ofStep _ _ (.skipped reason) => some reason
  | .ofFork _ _ (.failed error) => some error
  | .ofForkedUnit _ _ _ (.failed error) => some error
  | _ => none

/-- An action of a build of units asks for artifacts of such a unit only, and complains for a reason
of some sort only. -/
def Action.KeepsTo (units : UnitGraph) (reason : String → Prop) : Action → Prop
  | .requested request => request.unit ∈ units.ids
  | .reported event => ∀ text, event.complaint? = some text → reason text
  | _ => True

section actions

variable {units : UnitGraph} {reason : String → Prop}

/-- An event that complains of nothing is fine. -/
theorem Action.keepsTo_of_eq_none {event : Event} (h : event.complaint? = none) :
    (Action.reported event).KeepsTo units reason := by
  intro text htext
  rw [h] at htext
  cases htext

/-- An event that complains for a reason of the right sort is fine. -/
theorem Action.keepsTo_of_eq_some {event : Event} {text : String} (hreason : reason text)
    (h : event.complaint? = some text) : (Action.reported event).KeepsTo units reason := by
  intro other hother
  exact Option.some.inj (h.symm.trans hother) ▸ hreason

/-- An action that complains for reasons of one sort complains for reasons of any wider sort. -/
theorem Action.KeepsTo.imp {action : Action} {other : String → Prop}
    (h : action.KeepsTo units reason) (himp : ∀ text, reason text → other text) :
    action.KeepsTo units other := by
  cases action with
  | reported event => exact fun text htext => himp text (h text htext)
  | requested request => exact h
  | locked _ _ => trivial
  | ran _ => trivial
  | unlocked _ _ => trivial

end actions

/-- The graph of a build refuses no request for artifacts of its units. -/
theorem Resolver.not_refuses_ofGraph {units : UnitGraph} {history : List ResolveRequest}
    {request : ResolveRequest} {reasons : List String} :
    ¬ (ofGraph units).Refuses units.units history request reasons := by
  rintro ⟨unit, hunit, -, hanswer⟩
  have hcontains : units.contains unit.id = true :=
    UnitGraph.get?_isSome_iff.2 (List.mem_map_of_mem hunit)
  rw [ofGraph, if_pos hcontains] at hanswer
  cases hanswer

namespace Executor

variable {x : Executor} {lane : Nat} {unit : BuildUnit} {depth : Nat} {step : Step} {p : Progress}

/-- A text says what can go wrong with the work of an executor on a lane. -/
def Complains (x : Executor) (lane : Nat) (text : String) : Prop :=
  ∃ fault : Fault, fault.HindersWork x.units (x.resolver.forLane lane) ∧ text = fault.message

/-- What can go wrong with the work may be complained of. -/
theorem complains_of_hindersWork {fault : Fault}
    (h : fault.HindersWork x.units (x.resolver.forLane lane)) : x.Complains lane fault.message :=
  ⟨fault, h, rfl⟩

@[simp] theorem fault_failure (reasons : List String) :
    (failure unit step reasons).fault = .failedStep step.display unit.id reasons := by
  unfold failure
  cases step.phase <;> rfl

/-- A step may fail because the settings of the build do not allow it. -/
theorem hindersWork_of_unmet? {fault : Fault} (h : x.unmet? step = some fault) :
    fault.HindersWork x.units (x.resolver.forLane lane) := by
  unfold unmet? at h
  split at h
  · exact Option.some.inj h ▸ .project
  · split at h
    · exact Option.some.inj h ▸ .network
    · cases h

/-! ### Steps -/

/-- Work of a lane from some progress keeps to the units of the build: what it has added to the
actions, and why it has failed if it has. -/
structure KeepsTo (x : Executor) (lane : Nat) (p : Progress) (o : Outcome) : Prop where
  actions : (∀ action ∈ p.actions, action.KeepsTo x.units (x.Complains lane)) →
    ∀ action ∈ o.2.actions, action.KeepsTo x.units (x.Complains lane)
  error : ∀ e, o.1 = .error e → e.fault.HindersWork x.units (x.resolver.forLane lane)

/-- Taking the locks of a step neither asks for artifacts nor complains. -/
theorem keepsTo_acquiring : ∀ action ∈ x.acquiring lane unit step,
    action.KeepsTo x.units (x.Complains lane) := by
  unfold acquiring
  split <;> simp [Action.KeepsTo]

/-- Giving the locks of a step back neither asks for artifacts nor complains. -/
theorem keepsTo_releasing : ∀ action ∈ x.releasing lane unit step,
    action.KeepsTo x.units (x.Complains lane) := by
  unfold releasing
  split <;> simp [Action.KeepsTo]

/-- A step on a unit of the build asks for artifacts of such units only, and fails for a reason that
can go wrong with work. -/
theorem Performs.keepsTo (hunit : unit ∈ x.units.units) {result : Except BuildError Unit}
    {added : List Action} (h : x.Performs lane unit depth step p result added) :
    (∀ action ∈ added, action.KeepsTo x.units (x.Complains lane)) ∧
      ∀ e, result = .error e → e.fault.HindersWork x.units (x.resolver.forLane lane) := by
  have hamong : unit :: x.units.sorted ⊆ x.units.units :=
    List.cons_subset.2 ⟨hunit, x.units.sorted_perm.subset⟩
  have hanswers := x.answers_ensured lane step p hamong
  have hrequested : ∀ action ∈ (x.ensured lane unit step p).requests.map Action.requested,
      action.KeepsTo x.units (x.Complains lane) := by
    intro action haction
    obtain ⟨request, hrequest, rfl⟩ := List.mem_map.1 haction
    exact hanswers.mem_ids request hrequest
  cases h with
  | unresolved hneeds =>
    refine ⟨hrequested, ?_⟩
    rintro _ ⟨⟩
    rw [hneeds] at hanswers
    obtain ⟨_, _, -, -, hrefused⟩ := hanswers.exists_of_error
    exact .artifacts unit.id hrefused
  | @failed reasons _ _ =>
    have hfault :
        (failure unit step reasons).fault.HindersWork x.units (x.resolver.forLane lane) := by
      rw [fault_failure]
      exact .step _ _ _
    refine ⟨?_, fun e he => Except.error.inj he ▸ hfault⟩
    simp only [List.forall_mem_append, List.forall_mem_cons]
    refine ⟨hrequested, nofun, trivial, ?_, List.forall_mem_nil _⟩
    rintro _ ⟨⟩
    exact complains_of_hindersWork hfault
  | succeeded _ _ =>
    refine ⟨?_, nofun⟩
    simp only [List.forall_mem_append, List.forall_mem_cons]
    exact ⟨hrequested, nofun, trivial, nofun, List.forall_mem_nil _⟩

/-- A step on a unit of the build keeps to the units of the build, locks included. -/
theorem keepsTo_performStep (hunit : unit ∈ x.units.units) :
    x.KeepsTo lane p (x.performStep lane unit depth step p) := by
  obtain ⟨added, hactions, hperforms⟩ := x.performs_performStep lane unit depth step p
  obtain ⟨hadded, herror⟩ := hperforms.keepsTo hunit
  refine ⟨fun hp => ?_, herror⟩
  rw [hactions]
  simp only [List.forall_mem_append]
  exact ⟨hp, ⟨keepsTo_acquiring, hadded⟩, keepsTo_releasing⟩

/-! ### Executions -/

section composing

variable {q : Progress} {o : Outcome} {event : Event}

/-- Doing nothing keeps to the units of the build. -/
theorem KeepsTo.refl (p : Progress) : x.KeepsTo lane p (.ok (), p) :=
  ⟨fun hp => hp, nofun⟩

/-- Work in two parts keeps to the units of the build if both of its parts do. -/
theorem KeepsTo.trans (h : x.KeepsTo lane p (.ok (), q)) (hrest : x.KeepsTo lane q o) :
    x.KeepsTo lane p o :=
  ⟨fun hp => hrest.actions (h.actions hp), hrest.error⟩

/-- Of the progress only the actions count. -/
theorem KeepsTo.of_actions {p' q' : Progress} {result : Except BuildError Unit}
    (h : x.KeepsTo lane p (result, q)) (hstart : p'.actions = p.actions)
    (hend : q'.actions = q.actions) : x.KeepsTo lane p' (result, q') := by
  refine ⟨fun hp => ?_, h.error⟩
  rw [hstart] at hp
  rw [hend]
  exact h.actions hp

/-- Work keeps to the units of the build together with a last event that does. -/
theorem KeepsTo.report {result : Except BuildError Unit} (h : x.KeepsTo lane p (result, q))
    (hevent : (Action.reported event).KeepsTo x.units (x.Complains lane)) :
    x.KeepsTo lane p (result, q.report event) := by
  refine ⟨fun hp => ?_, h.error⟩
  rw [Progress.report, Progress.act, List.forall_mem_append, List.forall_mem_singleton]
  exact ⟨h.actions hp, hevent⟩

/-- Work between two events, the first of which complains of nothing. -/
theorem KeepsTo.between {first : Event} {result : Except BuildError Unit}
    (h : x.KeepsTo lane (p.report first) (result, q)) (hfirst : first.complaint? = none)
    (hlast : (Action.reported event).KeepsTo x.units (x.Complains lane)) :
    x.KeepsTo lane p (result, q.report event) :=
  (((KeepsTo.refl p).report (Action.keepsTo_of_eq_none hfirst)).trans h).report hlast

/-- Work that is forked on a unit. -/
theorem KeepsTo.concludeTarget {target : BuildUnit} {executions : List Execution}
    (h : x.KeepsTo lane (enterTarget unit target step executions p) o) :
    x.KeepsTo lane p (Executor.concludeTarget unit target step p o) := by
  obtain ⟨result, inner⟩ := o
  have hstart : x.KeepsTo lane
      (p.report (.ofForkedUnit unit.id step.display target.id .started)) (result, inner) :=
    h.of_actions rfl rfl
  cases result with
  | error e =>
    have hlast : Event.complaint? (.ofForkedUnit unit.id step.display target.id
        (.failed e.message)) = some e.fault.message := rfl
    have herror := complains_of_hindersWork (h.error e rfl)
    exact (hstart.between rfl (Action.keepsTo_of_eq_some herror hlast)).of_actions rfl rfl
  | ok _ =>
    have hlast : Event.complaint? (.ofForkedUnit unit.id step.display target.id .succeeded) =
        none := rfl
    exact (hstart.between rfl (Action.keepsTo_of_eq_none hlast)).of_actions rfl rfl

end composing

/-- Work on units of the build whose executions stay within it keeps to the units of the build. -/
theorem rules_keepsTo : x.Rules lane
    (fun unit _ e p o => unit ∈ x.units.units → e.StaysWithin x.units unit.id → x.KeepsTo lane p o)
    (fun unit _ _ forked p o => unit ∈ x.units.units →
      (∀ entry ∈ forked, entry.unit ∈ x.units.ids ∧
        ∀ e ∈ entry.executions, e.StaysWithin x.units entry.unit) → x.KeepsTo lane p o)
    (fun unit _ executions p o => unit ∈ x.units.units →
      (∀ e ∈ executions, e.StaysWithin x.units unit.id) → x.KeepsTo lane p o) where
  refused hunmet _ _ _ :=
    ⟨fun hp => hp, fun e he => Except.error.inj he ▸ hindersWork_of_unmet? hunmet⟩
  skipped hunmet _ _ _ :=
    (KeepsTo.refl _).report (Action.keepsTo_of_eq_some
      (complains_of_hindersWork (hindersWork_of_unmet? hunmet)) rfl)
  performed _ _ hunit _ := keepsTo_performStep hunit
  forkFailed _ hdone hunit hstays := by
    have hforked := hdone hunit fun entry hentry => ⟨hstays.mem_ids hentry, hstays.inner hentry⟩
    have herror := complains_of_hindersWork (hforked.error _ rfl)
    exact hforked.between rfl (Action.keepsTo_of_eq_some herror rfl)
  forkSucceeded _ hdone hunit hstays := by
    have hforked := hdone hunit fun entry hentry => ⟨hstays.mem_ids hentry, hstays.inner hentry⟩
    refine KeepsTo.trans ?_ (keepsTo_performStep hunit)
    exact hforked.between rfl (Action.keepsTo_of_eq_none rfl)
  forkedNil _ _ := .refl _
  lost hget _ hforked := by
    -- the unit is one of the build
    have hknown := UnitGraph.get?_isSome_iff.2 (hforked _ List.mem_cons_self).1
    rw [hget] at hknown
    cases hknown
  targetFailed hget hdone _ hforked := by
    obtain ⟨htarget, rfl⟩ := UnitGraph.get?_eq_some_iff.1 hget
    exact (hdone htarget (hforked _ List.mem_cons_self).2).concludeTarget
  targetSucceeded hget hdone hrest hunit hforked := by
    obtain ⟨htarget, rfl⟩ := UnitGraph.get?_eq_some_iff.1 hget
    obtain ⟨⟨-, hfirst⟩, hothers⟩ := List.forall_mem_cons.1 hforked
    exact KeepsTo.trans (hdone htarget hfirst).concludeTarget (hrest hunit hothers)
  nil _ _ := .refl _
  failed hdone hunit hall := hdone hunit (List.forall_mem_cons.1 hall).1
  cons hdone hrest hunit hall := by
    obtain ⟨hfirst, hothers⟩ := List.forall_mem_cons.1 hall
    refine KeepsTo.trans ?_ (hrest hunit hothers)
    exact (hdone hunit hfirst).of_actions rfl rfl

/-- What executions on a unit of the build come to. -/
theorem execute_keepsTo (lane : Nat) (hunit : unit ∈ x.units.units) {executions : List Execution}
    (hstays : ∀ e ∈ executions, e.StaysWithin x.units unit.id) (state : UnitState) :
    (∀ action ∈ (x.execute lane unit state executions).2.2,
        action.KeepsTo x.units (x.Complains lane)) ∧
      ∀ e, (x.execute lane unit state executions).1 = .error e →
        e.fault.HindersWork x.units (x.resolver.forLane lane) := by
  have hrules : x.Rules lane _ _ _ := rules_keepsTo
  obtain ⟨o, heq, hdone⟩ := hrules.execute unit state executions
  have hkeeps := hdone hunit hstays
  rw [heq]
  exact ⟨hkeeps.actions (List.forall_mem_nil _), hkeeps.error⟩

end Executor

end PhasedBuild
