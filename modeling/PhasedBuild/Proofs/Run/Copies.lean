import PhasedBuild.Proofs.Run.Agenda
import PhasedBuild.Proofs.Run.Forks

/-!
# The copy that a step sees

A step that forks work on its own unit sees the copy on which that work was done. What each step
should see is listed beside the agenda.

* `Executor.sights` lists what is to be run of an execution and whether it sees a copy.
* `Executor.execute_sights`: from a state without a copy, the steps that are run see what is
  listed for them.
* `Executor.Strands`: forked work on the unit itself comes to its end, and later work of the same
  step fails. This is when a copy is left behind (`Executor.forked_executeList_iff`).
-/

namespace PhasedBuild

open Execution

/-- A step in an agenda and whether it sees a copy. -/
abbrev Sight : Type :=
  (String × Nat × Step) × Bool

/-- What a call stands for in an agenda, and whether it sees a copy. -/
def StepCall.sight (call : StepCall) : Sight :=
  (call.entry, call.state.forked.isSome)

namespace Action

/-- What a list of actions runs, and whether it sees a copy. -/
def sights (actions : List Action) : List Sight :=
  (calls actions).map StepCall.sight

@[simp] theorem sights_append (actions others : List Action) :
    sights (actions ++ others) = sights actions ++ sights others := by
  simp [sights]

/-- Requests for artifacts run nothing. -/
@[simp] theorem sights_requested (asked : List ResolveRequest) :
    sights (asked.map .requested) = [] := by
  simp [sights]

/-- A report runs nothing. -/
@[simp] theorem sights_reported (event : Event) : sights [.reported event] = [] :=
  rfl

/-- Events around actions show nothing. -/
@[simp] theorem sights_between (first last : Event) (actions : List Action) :
    sights (reported first :: actions ++ [reported last]) = sights actions := by
  simp [sights, calls, call?, List.filterMap_cons]

/-- The steps of a list of actions are those that stand in the agenda, with what they see left
out. -/
theorem map_fst_sights (actions : List Action) : (sights actions).map (·.1) = entries actions := by
  unfold sights entries
  rw [List.map_map]
  rfl

end Action

/-- Whether some of the work is forked on a unit. -/
def Forked.anyOn (unit : String) (units : List (Forked Execution)) : Bool :=
  units.any (·.unit == unit)

namespace Executor

variable (x : Executor)

/-! ### What steps should see -/

mutual

/-- What is to be run of an execution on a unit, in order, and whether it sees a copy: a step sees
one if and only if it forks work on its own unit. -/
def sights (unit : String) (depth : Nat) : Execution → List Sight
  | ⟨step, .expanded units⟩ =>
    if x.passesOver step then []
    else sightsUnits (depth + 1) units ++ [((unit, depth, step), Forked.anyOn unit units)]
  | ⟨step, .pending⟩ => if x.passesOver step then [] else [((unit, depth, step), false)]
  | ⟨step, .notForking⟩ => if x.passesOver step then [] else [((unit, depth, step), false)]

/-- `sights` for the forked units of a step. -/
def sightsUnits (depth : Nat) : List (Forked Execution) → List Sight
  | [] => []
  | ⟨unit, executions⟩ :: rest => sightsList unit depth executions ++ sightsUnits depth rest

/-- `sights` for a list of executions on a unit. -/
def sightsList (unit : String) (depth : Nat) : List Execution → List Sight
  | [] => []
  | execution :: rest => sights unit depth execution ++ sightsList unit depth rest

end

mutual

/-- The steps that are to be run of an execution are its agenda, with what they see left out. -/
theorem map_fst_sights (unit : String) (depth : Nat) : (execution : Execution) →
    (x.sights unit depth execution).map (·.1) = x.agenda unit depth execution
  | ⟨step, .expanded units⟩ => by
    unfold sights agenda
    split
    next => rfl
    next => rw [List.map_append, map_fst_sightsUnits]; rfl
  | ⟨step, .pending⟩ => by
    unfold sights agenda
    split <;> rfl
  | ⟨step, .notForking⟩ => by
    unfold sights agenda
    split <;> rfl

/-- So it is for the forked units of a step. -/
theorem map_fst_sightsUnits (depth : Nat) : (units : List (Forked Execution)) →
    (x.sightsUnits depth units).map (·.1) = x.agendaUnits depth units
  | [] => by
    unfold sightsUnits agendaUnits
    rfl
  | ⟨unit, executions⟩ :: rest => by
    unfold sightsUnits agendaUnits
    rw [List.map_append, map_fst_sightsList, map_fst_sightsUnits]

/-- So it is for a list of executions. -/
theorem map_fst_sightsList (unit : String) (depth : Nat) : (executions : List Execution) →
    (x.sightsList unit depth executions).map (·.1) = x.agendaList unit depth executions
  | [] => by
    unfold sightsList agendaList
    rfl
  | execution :: rest => by
    unfold sightsList agendaList
    rw [List.map_append, map_fst_sights, map_fst_sightsList]

end

variable {x} {unit : String} {depth : Nat} {execution : Execution}

/-- A step that is not passed over comes after its forked work, and sees a copy if some of that was
on its own unit. -/
theorem sights_eq (h : x.unmet? execution.step = none) :
    x.sights unit depth execution = x.sightsUnits (depth + 1) execution.forkedUnits ++
      [((unit, depth, execution.step), Forked.anyOn unit execution.forkedUnits)] := by
  have hpasses : x.passesOver execution.step = false := by simp [passesOver, h]
  obtain ⟨step, forks⟩ := execution
  cases forks <;> simp_all [sights, sightsUnits, forkedUnits, Forked.anyOn]

/-- Where a step is passed over nothing is run. -/
theorem sights_of_skipped {fault : Fault} (h : x.unmet? execution.step = some fault)
    (hcli : execution.step.source ≠ .cli) : x.sights unit depth execution = [] := by
  have hpasses : x.passesOver execution.step = true := by simp [passesOver, h, hcli]
  obtain ⟨step, forks⟩ := execution
  cases forks <;> simp_all [sights]

end Executor

/-! ### What steps see -/

namespace Outcome

/-- After some actions, an outcome has added steps that see what is listed, or the first of them if
it is a failure. If it is none, a copy is left if and only if `kept` says so. -/
inductive Shows (before : List Action) (sights : List Sight) (kept : Bool) : Outcome → Prop where
  | done {p : Progress} {added : List Action} (hactions : p.actions = before ++ added)
      (hsights : Action.sights added = sights) (hkept : p.state.forked.isSome = kept) :
      Shows before sights kept (.ok (), p)
  | stopped {p : Progress} {added : List Action} {error : BuildError}
      (hactions : p.actions = before ++ added) (hsights : Action.sights added <+: sights) :
      Shows before sights kept (.error error, p)

variable {before added : List Action} {sights more : List Sight} {kept kept' : Bool} {o : Outcome}
  {p q : Progress} {error : BuildError}

/-- What a run shows after some actions it shows together with them. -/
theorem Shows.prepend (h : Shows (before ++ added) more kept o)
    (hsights : Action.sights added = sights) : Shows before (sights ++ more) kept o := by
  cases h with
  | done hactions hmore hkept =>
    refine .done (by rw [hactions, List.append_assoc]) ?_ hkept
    rw [Action.sights_append, hsights, hmore]
  | stopped hactions hmore =>
    refine .stopped (by rw [hactions, List.append_assoc]) ?_
    rw [Action.sights_append, hsights]
    exact (List.prefix_append_right_inj sights).2 hmore

/-- A report at the start of a run shows nothing. -/
theorem Shows.report_first {event : Event} (h : Shows (p.report event).actions sights kept o) :
    Shows p.actions sights kept o := by
  rw [← List.nil_append sights]
  exact Shows.prepend h (Action.sights_reported event)

/-- Work that fails shows the first of anything that goes on from what it should show. -/
theorem Shows.stop (h : Shows before sights kept (.error error, p)) {event : Event}
    (hq : q.actions = p.actions ++ [.reported event]) :
    Shows before (sights ++ more) kept' (.error error, q) := by
  cases h with
  | stopped hactions hsights =>
    refine .stopped (by rw [hq, hactions, List.append_assoc]) ?_
    rw [Action.sights_append, Action.sights_reported, List.append_nil]
    exact hsights.trans (List.prefix_append _ _)

/-- A run from the start shows what is listed, or the first of it. -/
theorem Shows.isPrefix (h : Shows [] sights kept o) : Action.sights o.2.actions <+: sights := by
  cases h with
  | done hactions hsights _ =>
    rw [hactions, List.nil_append]
    exact hsights ▸ List.prefix_rfl
  | stopped hactions hsights =>
    rw [hactions, List.nil_append]
    exact hsights

/-- A run from the start that succeeds shows all that is listed, and leaves a copy if it is said
to. -/
theorem Shows.eq_of_ok (h : Shows [] sights kept o) (hok : o.1 = .ok ()) :
    Action.sights o.2.actions = sights ∧ o.2.state.forked.isSome = kept := by
  cases h with
  | done hactions hsights hkept => exact ⟨by rw [hactions, List.nil_append, hsights], hkept⟩
  | stopped _ _ => cases hok

end Outcome

namespace Executor

open Outcome

variable {x : Executor} {lane : Nat} {unit : BuildUnit} {depth : Nat} {step : Step} {p : Progress}

variable (x lane unit depth step p) in
/-- The call of a step sees the copy that is there, and none is left afterwards. -/
theorem shows_performStep :
    Shows p.actions [((unit.id, depth, step), p.state.forked.isSome)] false
      (x.performStep lane unit depth step p) := by
  obtain ⟨added, hactions, hperforms⟩ := x.performs_performStep lane unit depth step p
  have hforked : (x.performStep lane unit depth step p).2.state.forked.isSome = false := rfl
  have hacquiring : Action.sights (x.acquiring lane unit step) = [] := by simp [Action.sights]
  have hreleasing : Action.sights (x.releasing lane unit step) = [] := by simp [Action.sights]
  have hsights : Action.sights (x.acquiring lane unit step ++ added ++
      x.releasing lane unit step) = Action.sights added := by
    simp [hacquiring, hreleasing]
  generalize x.performStep lane unit depth step p = o at hactions hperforms hforked
  obtain ⟨result, q⟩ := o
  cases hperforms with
  | unresolved hneeds =>
    refine .stopped hactions ?_
    rw [hsights, Action.sights_requested]
    exact List.nil_prefix
  | failed hneeds hanswer =>
    refine .stopped hactions ?_
    rw [hsights, Action.sights_append, Action.sights_requested]
    exact List.prefix_rfl
  | succeeded hneeds hanswer =>
    refine .done hactions ?_ hforked
    rw [hsights, Action.sights_append, Action.sights_requested]
    rfl

/-- When the forked work on a unit is done, there is a copy if there was one before or if the unit
is the forking one. -/
theorem forked_concludeTarget {target : BuildUnit} {q : Progress} :
    (concludeTarget unit target step p (.ok (), q)).2.state.forked.isSome =
      (p.state.forked.isSome || target.id == unit.id) := by
  unfold concludeTarget
  by_cases h : target.id = unit.id
  · simp [h]
  · simp [h, Progress.report, Progress.act]

/-- Forked work on a unit starts without a copy. -/
theorem forked_enterTarget {target : BuildUnit} {executions : List Execution} :
    (enterTarget unit target step executions p).state.forked = none := by
  unfold enterTarget
  simp only
  split <;> rfl

variable (x lane) in
/-- Whatever part of executions is run, its steps see what is listed for them. -/
theorem rules_shows :
    x.Rules lane
      (fun unit depth execution p o => p.state.forked = none →
        Shows p.actions (x.sights unit.id depth execution) false o)
      (fun unit depth _ units p o => Shows p.actions (x.sightsUnits (depth + 1) units)
        (p.state.forked.isSome || Forked.anyOn unit.id units) o)
      (fun unit depth executions p o => p.state.forked = none →
        Shows p.actions (x.sightsList unit.id depth executions) false o) where
  refused _ _ _ := .stopped (List.append_nil _).symm List.nil_prefix
  skipped hunmet hcli hnone := by
    rw [sights_of_skipped hunmet hcli]
    exact .done rfl rfl (Option.isSome_eq_false_iff.2 (Option.isNone_iff_eq_none.2 hnone))
  performed {unit depth execution p} hmet hforks hnone := by
    have hstep := x.shows_performStep lane unit depth execution.step p
    rw [hnone] at hstep
    rw [sights_eq hmet, hforks]
    exact hstep
  forkFailed hmet hforked _ := by
    rw [sights_eq hmet]
    exact (hforked.stop rfl).report_first
  forkSucceeded {unit depth execution p q} hmet hforked hnone := by
    have hstep := x.shows_performStep lane unit depth execution.step
      (q.report (.ofFork unit.id execution.step.display .succeeded))
    rw [sights_eq hmet]
    generalize hsights : x.sightsUnits (depth + 1) execution.forkedUnits = sights at hforked
    cases hforked with
    | done hactions hadded hkept =>
      have hcopy : q.state.forked.isSome = Forked.anyOn unit.id execution.forkedUnits := by
        rw [hkept, show (p.report _).state.forked = none from hnone]
        rfl
      rw [show (q.report _).state.forked.isSome = _ from hcopy] at hstep
      rw [show (q.report _).actions = _ from Action.append_between hactions] at hstep
      exact hstep.prepend (by rw [Action.sights_between, hadded])
  forkedNil {unit depth step p} := by
    refine .done (List.append_nil _).symm rfl ?_
    simp [Forked.anyOn]
  lost _ := .stopped (List.append_nil _).symm List.nil_prefix
  targetFailed {unit target depth step id executions rest p q error} hget hall := by
    obtain ⟨-, rfl⟩ := UnitGraph.get?_eq_some_iff.1 hget
    exact ((hall forked_enterTarget).stop rfl).report_first
  targetSucceeded {unit target depth step id executions rest p q o} hget hall hrest := by
    obtain ⟨-, rfl⟩ := UnitGraph.get?_eq_some_iff.1 hget
    have hinner := hall forked_enterTarget
    generalize hsights : x.sightsList target.id (depth + 1) executions = sights at hinner
    cases hinner with
    | done hactions hadded hkept =>
      rw [forked_concludeTarget, Bool.or_assoc] at hrest
      rw [show (concludeTarget unit target step p (.ok (), q)).2.actions = _ from
        Action.append_between hactions] at hrest
      unfold sightsUnits
      rw [hsights]
      exact hrest.prepend (by rw [Action.sights_between, hadded])
  nil {unit depth p} hnone := by
    refine .done (List.append_nil _).symm rfl ?_
    rw [hnone]
    rfl
  failed hone hnone := by
    cases hone hnone with
    | stopped hactions hsights =>
      exact .stopped hactions (hsights.trans (List.prefix_append _ _))
  cons {unit depth execution rest p q o} hone hrest hnone := by
    have hfirst := hone hnone
    generalize hsights : x.sights unit.id depth execution = sights at hfirst
    cases hfirst with
    | done hactions hadded hkept =>
      have hmore := hrest (Option.isNone_iff_eq_none.1 (Option.isSome_eq_false_iff.1 hkept))
      rw [show Progress.actions _ = _ from hactions] at hmore
      unfold sightsList
      rw [hsights]
      exact hmore.prepend hadded

/-! ### When a copy is left behind -/

/-- Forked work comes to its end on some units, the forking unit among them, and fails on the next
one. -/
structure StrandsAt (x : Executor) (lane : Nat) (unit : BuildUnit) (depth : Nat) (step : Step)
    (p : Progress) (units : List (Forked Execution)) : Prop where
  exists_failing : ∃ done failing rest q error r, units = done ++ failing :: rest ∧
    x.executeForked lane unit depth step p done = (.ok (), q) ∧
    x.executeForked lane unit depth step q [failing] = (.error error, r) ∧
    Forked.anyOn unit.id done = true

/-- Executions on a unit come to a step at which forked work on the unit itself comes to its end and
later work of the same step fails. -/
def Strands (x : Executor) (lane : Nat) (unit : BuildUnit) (depth : Nat) (p : Progress)
    (executions : List Execution) : Prop :=
  ∃ before execution after q, executions = before ++ execution :: after ∧
    x.executeList lane unit depth p before = (.ok (), q) ∧
    x.unmet? execution.step = none ∧
    x.StrandsAt lane unit depth execution.step
      (q.report (.ofFork unit.id execution.step.display .started)) execution.forkedUnits

/-- Forked work that fails on a unit leaves the copy of the forking unit as it was. -/
theorem forked_executeForked_singleton {forked : Forked Execution} {error : BuildError}
    {r : Progress} (h : x.executeForked lane unit depth step p [forked] = (.error error, r)) :
    r.state.forked = p.state.forked := by
  obtain ⟨id, executions⟩ := forked
  unfold executeForked at h
  split at h
  next =>
    obtain ⟨-, rfl⟩ := Prod.mk.inj h
    rfl
  next target _ =>
    simp only [executeForked_nil, bracketTarget_eq] at h
    split at h
    next error' q heq =>
      obtain ⟨-, rfl⟩ := Prod.mk.inj h
      cases hdone : x.executeList lane target (depth + 1)
        (enterTarget unit target step executions p) executions with
      | mk result inner =>
        rw [hdone] at heq
        cases result with
        | error _ =>
          obtain ⟨-, rfl⟩ := Prod.mk.inj heq
          rfl
        | ok _ => cases heq
    next => cases h

/-- Forked work that comes to its end leaves a copy if there was one before or if some of it was on
the forking unit. -/
theorem forked_executeForked_ok {units : List (Forked Execution)} {q : Progress}
    (h : x.executeForked lane unit depth step p units = (.ok (), q)) :
    q.state.forked.isSome = (p.state.forked.isSome || Forked.anyOn unit.id units) := by
  have hshows := (x.rules_shows lane).executeForked unit depth step p units
  rw [h] at hshows
  cases hshows with
  | done _ _ hkept => exact hkept

/-- Forked work that fails leaves a copy if and only if it strands it. -/
theorem forked_isSome_iff_strandsAt {units : List (Forked Execution)} {error : BuildError}
    {r : Progress} (hnone : p.state.forked = none)
    (h : x.executeForked lane unit depth step p units = (.error error, r)) :
    r.state.forked.isSome = true ↔ x.StrandsAt lane unit depth step p units := by
  constructor
  · intro hsome
    obtain ⟨done, failing, rest, q, hsplit, hdone, hfailing⟩ := exists_of_executeForked_error h
    refine ⟨done, failing, rest, q, error, r, hsplit, hdone, hfailing, ?_⟩
    rw [forked_executeForked_singleton hfailing, forked_executeForked_ok hdone, hnone] at hsome
    exact hsome
  · rintro ⟨done, failing, rest, q, error', r', rfl, hdone, hfailing, hany⟩
    rw [executeForked_append, hdone, Outcome.andThen_ok, executeForked_cons, hfailing] at h
    obtain ⟨-, rfl⟩ := Prod.mk.inj h
    rw [forked_executeForked_singleton hfailing, forked_executeForked_ok hdone, hany,
      Bool.or_true]

/-- Forked work that strands a copy fails. -/
theorem StrandsAt.exists_error {units : List (Forked Execution)}
    (h : x.StrandsAt lane unit depth step p units) :
    ∃ error r, x.executeForked lane unit depth step p units = (.error error, r) := by
  obtain ⟨done, failing, rest, q, error, r, rfl, hdone, hfailing, -⟩ := h
  refine ⟨error, r, ?_⟩
  rw [executeForked_append, hdone, Outcome.andThen_ok, executeForked_cons, hfailing,
    Outcome.andThen_error]

/-- Only a step that forks work can strand a copy. -/
theorem StrandsAt.ne_nil {units : List (Forked Execution)}
    (h : x.StrandsAt lane unit depth step p units) : units ≠ [] := by
  obtain ⟨done, failing, rest, _, _, _, rfl, -⟩ := h
  simp

variable (x lane unit depth) in
/-- An execution that starts without a copy leaves one exactly if its forked work strands it: a step
that is reached drops the copy after it has run. -/
theorem forked_executeOne_iff (execution : Execution) (hnone : p.state.forked = none) :
    (x.executeOne lane unit depth p execution).2.state.forked.isSome = true ↔
      x.unmet? execution.step = none ∧ x.StrandsAt lane unit depth execution.step
        (p.report (.ofFork unit.id execution.step.display .started)) execution.forkedUnits := by
  have hperformed : ∀ q : Progress,
      (x.performStep lane unit depth execution.step q).2.state.forked.isSome = false :=
    fun _ => rfl
  rw [executeOne_eq]
  unfold whenAllowed
  split
  next hmet =>
    simp only [hmet, true_and]
    unfold runForks bracketFork
    by_cases hnil : execution.forkedUnits = []
    · have hnot : ¬ x.StrandsAt lane unit depth execution.step
          (p.report (.ofFork unit.id execution.step.display .started)) execution.forkedUnits :=
        fun hstrands => hstrands.ne_nil hnil
      simp [hnil ▸ hnot, hperformed, hnil]
    · rw [if_neg (by simpa using hnil)]
      cases hforked : x.executeForked lane unit depth execution.step
        (p.report (.ofFork unit.id execution.step.display .started)) execution.forkedUnits with
      | mk result r =>
        simp only [hforked]
        cases result with
        | error error =>
          have hstarted : (p.report (.ofFork unit.id execution.step.display
              .started)).state.forked = none := hnone
          have hiff := forked_isSome_iff_strandsAt hstarted hforked
          exact hiff
        | ok _ =>
          have hnot : ¬ x.StrandsAt lane unit depth execution.step
              (p.report (.ofFork unit.id execution.step.display .started))
              execution.forkedUnits := by
            intro hstrands
            obtain ⟨error, r', herror⟩ := hstrands.exists_error
            rw [hforked] at herror
            cases herror
          simp [hnot, hperformed]
  next fault hunmet =>
    have hnot : ¬ x.unmet? execution.step = none := by simp [hunmet]
    split <;> simp [hnone, hnot, Progress.report, Progress.act]

/-- Where nothing is executed, no copy is stranded. -/
theorem strands_nil : ¬ x.Strands lane unit depth p [] := by
  rintro ⟨before, execution, after, _, hsplit, -⟩
  simp at hsplit

/-- A list of executions strands a copy at its first one, or at a later one when the first comes to
its end. -/
theorem strands_cons_iff {execution : Execution} {rest : List Execution} :
    x.Strands lane unit depth p (execution :: rest) ↔
      (x.unmet? execution.step = none ∧ x.StrandsAt lane unit depth execution.step
        (p.report (.ofFork unit.id execution.step.display .started)) execution.forkedUnits) ∨
      ∃ q, x.executeOne lane unit depth p execution = (.ok (), q) ∧ x.Strands lane unit depth
        { q with state := q.state.enterPhase execution.step.phase } rest := by
  constructor
  · rintro ⟨before, later, after, q, hsplit, hbefore, hstrands⟩
    cases before with
    | nil =>
      obtain ⟨rfl, rfl⟩ := List.cons.inj hsplit
      rw [executeList_nil] at hbefore
      obtain ⟨-, rfl⟩ := Prod.mk.inj hbefore
      exact .inl hstrands
    | cons first before =>
      obtain ⟨rfl, rfl⟩ := List.cons.inj hsplit
      rw [executeList_cons] at hbefore
      obtain ⟨q', hone, hbefore⟩ := Outcome.andThen_eq_ok hbefore
      exact .inr ⟨q', hone, before, later, after, q, rfl, hbefore, hstrands⟩
  · rintro (hstrands | ⟨q', hone, before, later, after, q, rfl, hbefore, hstrands⟩)
    · exact ⟨[], execution, rest, p, rfl, executeList_nil p, hstrands⟩
    · refine ⟨execution :: before, later, after, q, rfl, ?_, hstrands⟩
      rw [executeList_cons, hone]
      exact hbefore

/-- Executions leave a copy behind if and only if they strand it. -/
theorem forked_executeList_iff {executions : List Execution} (hnone : p.state.forked = none) :
    (x.executeList lane unit depth p executions).2.state.forked.isSome = true ↔
      x.Strands lane unit depth p executions := by
  induction executions generalizing p with
  | nil => simp [hnone, strands_nil]
  | cons execution rest ih =>
    have hone := x.forked_executeOne_iff lane unit depth execution hnone
    rw [executeList_cons, strands_cons_iff, ← hone]
    have hshows := (x.rules_shows lane).executeOne unit depth p execution hnone
    cases hdone : x.executeOne lane unit depth p execution with
    | mk result q =>
      rw [hdone] at hshows
      cases hshows with
      | stopped _ _ => simp
      | done _ _ hkept =>
        have hnext := ih (p := { q with state := q.state.enterPhase execution.step.phase })
          (Option.isNone_iff_eq_none.1 (Option.isSome_eq_false_iff.1 hkept))
        rw [Outcome.andThen_ok, hnext]
        simp [hkept]

/-! ### Executions on a unit -/

/-- From a state without a copy, the steps that executions on a unit run see what is listed for
them. A copy is left behind if and only if it is stranded; then the executions have failed. -/
theorem execute_sights (x : Executor) (lane : Nat) (unit : BuildUnit) {state : UnitState}
    (hnone : state.forked = none) (executions : List Execution) :
    let result := (x.execute lane unit state executions).1
    let after := (x.execute lane unit state executions).2.1
    let sights := Action.sights (x.execute lane unit state executions).2.2
    sights <+: x.sightsList unit.id 0 executions ∧
      (result = .ok () → sights = x.sightsList unit.id 0 executions ∧ after.forked.isSome = false) ∧
      (after.forked.isSome = true ↔
        x.Strands lane unit 0 (enter unit state executions) executions) := by
  intro result after sights
  have hiff : after.forked.isSome = true ↔ x.Strands lane unit 0 _ executions :=
    forked_executeList_iff (p := enter unit state executions) hnone
  have hshows : Outcome.Shows [] (x.sightsList unit.id 0 executions) false
      (x.executeList lane unit 0 (enter unit state executions) executions) :=
    (x.rules_shows lane).executeList unit 0 (enter unit state executions) executions hnone
  refine ⟨?_, ?_, hiff⟩
  · exact hshows.isPrefix
  · intro hok
    exact hshows.eq_of_ok hok

end Executor

end PhasedBuild
