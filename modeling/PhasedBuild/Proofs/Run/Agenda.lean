import PhasedBuild.Proofs.Run.Resolution
import PhasedBuild.Proofs.Units.Dependence
import PhasedBuild.Run.Rules

/-!
# The order in which steps are run

What is to be run is a list in a plain order. Executions are visited one after the other, the work
that a step forks comes before the step itself, and a step that is passed over takes the work that
it forks with it.

* `Executor.agenda` lists what is to be run of an execution.
* `Executor.Stops`: why a run comes to no end, and what it leaves undone.
* `Executor.execution_follows_agenda`: an executor runs its agenda from the start, in order. It
  comes to its end, or to the first of the four reasons to stop. -/

namespace PhasedBuild

open Execution

/-- What a call stands for in an agenda. -/
def StepCall.entry (call : StepCall) : String × Nat × Step :=
  (call.unit.id, call.depth, call.step)

namespace Action

/-- What a list of actions runs, as it stands in an agenda. -/
def entries (actions : List Action) : List (String × Nat × Step) :=
  (calls actions).map StepCall.entry

@[simp] theorem entries_append (actions others : List Action) :
    entries (actions ++ others) = entries actions ++ entries others := by
  simp [entries]

/-- Requests for artifacts run nothing. -/
@[simp] theorem entries_requested (asked : List ResolveRequest) :
    entries (asked.map .requested) = [] := by
  simp [entries]

/-- Whether an action neither runs a step nor asks for artifacts. -/
def IsQuiet (action : Action) : Prop :=
  action.call? = none ∧ action.request? = none

/-- A report runs nothing and asks for nothing. -/
theorem isQuiet_reported (event : Event) : ∀ action ∈ [reported event], action.IsQuiet :=
  List.forall_mem_singleton.2 ⟨rfl, rfl⟩

/-- Quiet actions run nothing. -/
theorem entries_of_quiet {actions : List Action} (h : ∀ action ∈ actions, action.IsQuiet) :
    entries actions = [] := by
  have hcalls : calls actions = [] := List.filterMap_eq_nil_iff.2 fun action haction =>
    (h action haction).1
  simp [entries, hcalls]

end Action

namespace Executor

variable (x : Executor)

/-! ### Agendas -/

/-- Whether a step is passed over: the settings of the build do not allow it, and it was not asked
for by its goal. -/
def passesOver (step : Step) : Bool :=
  (x.unmet? step).isSome && step.source != .cli

mutual

/-- What is to be run of an execution on a unit, in order: the work that it forks, one fork deeper,
and then its step. Each step comes with its unit and with the number of forks around it. -/
def agenda (unit : String) (depth : Nat) : Execution → List (String × Nat × Step)
  | ⟨step, .expanded units⟩ =>
    if x.passesOver step then [] else agendaUnits (depth + 1) units ++ [(unit, depth, step)]
  | ⟨step, .pending⟩ => if x.passesOver step then [] else [(unit, depth, step)]
  | ⟨step, .notForking⟩ => if x.passesOver step then [] else [(unit, depth, step)]

/-- `agenda` for the forked units of a step. -/
def agendaUnits (depth : Nat) : List (Forked Execution) → List (String × Nat × Step)
  | [] => []
  | ⟨unit, executions⟩ :: rest => agendaList unit depth executions ++ agendaUnits depth rest

/-- `agenda` for a list of executions on a unit. -/
def agendaList (unit : String) (depth : Nat) : List Execution → List (String × Nat × Step)
  | [] => []
  | execution :: rest => agenda unit depth execution ++ agendaList unit depth rest

end

variable {x} {unit : String} {depth : Nat} {execution : Execution}

/-- A step that is not passed over comes after all the work that it forks. -/
theorem agenda_eq (h : x.unmet? execution.step = none ∨ execution.step.source = .cli) :
    x.agenda unit depth execution =
      x.agendaUnits (depth + 1) execution.forkedUnits ++ [(unit, depth, execution.step)] := by
  have hpasses : x.passesOver execution.step = false := by
    unfold passesOver
    rcases h with h | h <;> simp [h]
  obtain ⟨step, forks⟩ := execution
  cases forks <;> simp_all [agenda, agendaUnits, forkedUnits]

/-- The units on which an execution forks work, at any depth, are those of the work that it forks
itself. -/
theorem allForked_eq : execution.allForked = allForkedUnits execution.forkedUnits := by
  obtain ⟨step, forks⟩ := execution
  cases forks <;> simp [allForked, allForkedUnits, forkedUnits]

/-- Where a step is passed over nothing is run, not even its forked work. -/
theorem agenda_of_skipped {fault : Fault} (h : x.unmet? execution.step = some fault)
    (hcli : execution.step.source ≠ .cli) : x.agenda unit depth execution = [] := by
  have hpasses : x.passesOver execution.step = true := by
    simp [passesOver, h, hcli]
  obtain ⟨step, forks⟩ := execution
  cases forks <;> simp_all [agenda]

/-! ### Going well, and stopping -/

section stopping

variable (x) (lane : Nat) (units : List BuildUnit) (ids : List String)

/-- On a lane, a step is run to its end, or a request for one of the units is granted, after other
actions. -/
def GoesWell (before : List Action) : Action → Prop
  | .ran call => (x.runner (Action.calls before) call).1 = .ok ()
  | .requested request => (x.resolver.forLane lane).Grants units (Action.requests before) request
  | .reported _ => True
  | .locked _ _ => True
  | .unlocked _ _ => True

/-- Why actions of a lane that come after others are the last ones, with the part of the agenda that
is left undone and the error. -/
inductive Stops (before : List Action) :
    List Action → List (String × Nat × Step) → BuildError → Prop where
  /-- The last step that was run has failed. -/
  | failed {earlier later : List Action} {call : StepCall} {reasons : List String}
      {rest : List (String × Nat × Step)}
      (hearlier : EachAfter (x.GoesWell lane units) before earlier)
      (hanswer : (x.runner (Action.calls (before ++ earlier)) call).1 = .error reasons)
      (hlater : ∀ action ∈ later, action.IsQuiet) :
      Stops before (earlier ++ .ran call :: later) rest (failure call.unit call.step reasons)
  /-- The last request, for the step that comes next, has been refused. -/
  | unresolved {earlier later : List Action} {request : ResolveRequest} {reasons : List String}
      {unit : BuildUnit} {depth : Nat} {step : Step} {rest : List (String × Nat × Step)}
      (hearlier : EachAfter (x.GoesWell lane units) before earlier)
      (hrefused : (x.resolver.forLane lane).Refuses units (Action.requests (before ++ earlier))
        request reasons)
      (hlater : ∀ action ∈ later, action.IsQuiet) :
      Stops before (earlier ++ .requested request :: later) ((unit.id, depth, step) :: rest)
        (Executor.unresolved unit step reasons)
  /-- The settings of the build do not allow the execution that comes next, which was asked for by
  its goal. -/
  | unmet {added : List Action} {unit : BuildUnit} {depth : Nat} {execution : Execution}
      {fault : Fault} {rest : List (String × Nat × Step)}
      (hadded : EachAfter (x.GoesWell lane units) before added)
      (hunmet : x.unmet? execution.step = some fault) (hcli : execution.step.source = .cli) :
      Stops before added (x.agenda unit.id depth execution ++ rest)
        (errorAt unit execution.step.display fault)
  /-- What comes next is forked on a unit outside the build. -/
  | outside {added : List Action} {unit : BuildUnit} {depth : Nat} {step : Step} {id : String}
      {executions : List Execution} {targets : List (Forked Execution)}
      {rest : List (String × Nat × Step)} (hadded : EachAfter (x.GoesWell lane units) before added)
      (hid : id ∈ ids) (hget : x.units.get? id = none) :
      Stops before added
        (x.agendaUnits (depth + 1) (⟨id, executions⟩ :: targets) ++ (unit.id, depth, step) :: rest)
        (errorAt unit step.display (.forkedUnitOutsideBuild id))

/-- Actions after others by which all that is to be run is run. -/
structure Completes (before : List Action) (entries : List (String × Nat × Step))
    (added : List Action) : Prop where
  entries_eq : Action.entries added = entries
  met : ∀ entry ∈ entries, x.unmet? entry.2.2 = none
  well : EachAfter (x.GoesWell lane units) before added

/-- Actions after others that stop on the way through what is to be run. -/
structure Halts (before : List Action) (entries : List (String × Nat × Step)) (error : BuildError)
    (added : List Action) : Prop where
  stops : ∃ rest,
    entries = Action.entries added ++ rest ∧ x.Stops lane units ids before added rest error
  met : ∀ entry ∈ Action.entries added, x.unmet? entry.2.2 = none

/-- How a run that starts after some actions goes on: it completes `entries`, or it halts on the way
through them and what comes after them. -/
inductive Follows (before : List Action) (entries after : List (String × Nat × Step)) :
    Outcome → Prop where
  | done {p : Progress} {added : List Action} (hactions : p.actions = before ++ added)
      (hdone : x.Completes lane units before entries added) :
      Follows before entries after (.ok (), p)
  | stopped {p : Progress} {added : List Action} {error : BuildError}
      (hactions : p.actions = before ++ added)
      (hstopped : x.Halts lane units ids before (entries ++ after) error added) :
      Follows before entries after (.error error, p)

end stopping

section composing

variable {lane : Nat} {units : List BuildUnit} {ids : List String}
  {before added later : List Action} {entries more rest : List (String × Nat × Step)}
  {error : BuildError}

/-- Quiet actions cannot go wrong. -/
theorem goesWell_of_quiet (h : ∀ action ∈ added, action.IsQuiet) :
    EachAfter (x.GoesWell lane units) before added := by
  induction added generalizing before with
  | nil => trivial
  | cons action added ih =>
    obtain ⟨⟨hcall, hrequest⟩, hadded⟩ := List.forall_mem_cons.1 h
    refine ⟨?_, ih hadded⟩
    cases action with
    | ran call => cases hcall
    | requested request => cases hrequest
    | reported _ => trivial
    | locked _ _ => trivial
    | unlocked _ _ => trivial

/-- Requests that are granted go well. -/
theorem goesWell_requested {requests : List ResolveRequest}
    (h : EachAfter ((x.resolver.forLane lane).Grants units) (Action.requests before) requests) :
    EachAfter (x.GoesWell lane units) before (requests.map .requested) := by
  induction requests generalizing before with
  | nil => trivial
  | cons request requests ih =>
    refine ⟨h.1, ih ?_⟩
    rw [Action.requests_append]
    exact h.2

/-! Actions that go well can be put in front of a stop, and what neither runs a step nor asks for
anything behind it. -/

/-- Actions that have gone well may come before those that stop. -/
theorem Stops.prepend (h : x.Stops lane units ids (before ++ added) later rest error)
    (hadded : EachAfter (x.GoesWell lane units) before added) :
    x.Stops lane units ids before (added ++ later) rest error := by
  cases h with
  | failed hearlier hanswer hlater =>
    rw [← List.append_assoc]
    rw [List.append_assoc] at hanswer
    exact .failed (eachAfter_append.2 ⟨hadded, hearlier⟩) hanswer hlater
  | unresolved hearlier hrefused hlater =>
    rw [← List.append_assoc]
    rw [List.append_assoc] at hrefused
    exact .unresolved (eachAfter_append.2 ⟨hadded, hearlier⟩) hrefused hlater
  | unmet hlater hunmet hcli => exact .unmet (eachAfter_append.2 ⟨hadded, hlater⟩) hunmet hcli
  | outside hlater hid hget => exact .outside (eachAfter_append.2 ⟨hadded, hlater⟩) hid hget

/-- Locks that are given back and reports do not change why the actions before them were the last
ones. -/
theorem Stops.close (h : x.Stops lane units ids before added rest error)
    (hlater : ∀ action ∈ later, action.IsQuiet) :
    x.Stops lane units ids before (added ++ later) rest error := by
  cases h with
  | failed hearlier hanswer hquiet =>
    rw [List.append_assoc, List.cons_append]
    exact .failed hearlier hanswer (List.forall_mem_append.2 ⟨hquiet, hlater⟩)
  | unresolved hearlier hrefused hquiet =>
    rw [List.append_assoc, List.cons_append]
    exact .unresolved hearlier hrefused (List.forall_mem_append.2 ⟨hquiet, hlater⟩)
  | unmet hadded hunmet hcli =>
    exact .unmet (eachAfter_append.2 ⟨hadded, goesWell_of_quiet hlater⟩) hunmet hcli
  | outside hadded hid hget =>
    exact .outside (eachAfter_append.2 ⟨hadded, goesWell_of_quiet hlater⟩) hid hget

/-- When the actions have stopped, more of the agenda may be left undone. -/
theorem Stops.extend (h : x.Stops lane units ids before added rest error) :
    x.Stops lane units ids before added (rest ++ more) error := by
  cases h with
  | failed hearlier hanswer hlater => exact .failed hearlier hanswer hlater
  | unresolved hearlier hrefused hlater => exact .unresolved hearlier hrefused hlater
  | unmet hadded hunmet hcli =>
    rw [List.append_assoc]
    exact .unmet hadded hunmet hcli
  | outside hadded hid hget =>
    rw [List.append_assoc, List.cons_append]
    exact .outside hadded hid hget

/-- A run in which all goes well stops only if there is more to run. -/
theorem Stops.rest_ne_nil (h : x.Stops lane units ids before added rest error)
    (hwell : EachAfter (x.GoesWell lane units) before added) : rest ≠ [] := by
  cases h with
  | failed hearlier hanswer hlater =>
    have hcall : (x.runner _ _).1 = .ok () := (eachAfter_append.1 hwell).2.1
    rw [hanswer] at hcall
    cases hcall
  | unresolved hearlier hrefused hlater => exact List.cons_ne_nil _ _
  | unmet hadded hunmet hcli =>
    rw [agenda_eq (.inr hcli)]
    simp
  | outside hadded hid hget => simp

/-- Quiet actions complete an agenda on which nothing stands. -/
theorem Completes.of_quiet (h : ∀ action ∈ added, action.IsQuiet) :
    x.Completes lane units before [] added where
  entries_eq := Action.entries_of_quiet h
  met _ hentry := absurd hentry List.not_mem_nil
  well := goesWell_of_quiet h

/-- Two agendas are completed one after the other. -/
theorem Completes.append (h : x.Completes lane units before entries added)
    (hmore : x.Completes lane units (before ++ added) more later) :
    x.Completes lane units before (entries ++ more) (added ++ later) where
  entries_eq := by rw [Action.entries_append, h.entries_eq, hmore.entries_eq]
  met := List.forall_mem_append.2 ⟨h.met, hmore.met⟩
  well := eachAfter_append.2 ⟨h.well, hmore.well⟩

/-- An agenda halts if its first part is completed and the rest halts. -/
theorem Completes.halts (h : x.Completes lane units before entries added)
    (hmore : x.Halts lane units ids (before ++ added) more error later) :
    x.Halts lane units ids before (entries ++ more) error (added ++ later) where
  stops := by
    obtain ⟨rest, hrest, hstops⟩ := hmore.stops
    refine ⟨rest, ?_, hstops.prepend h.well⟩
    rw [hrest, Action.entries_append, h.entries_eq, List.append_assoc]
  met := by
    rw [Action.entries_append, h.entries_eq]
    exact List.forall_mem_append.2 ⟨h.met, hmore.met⟩

/-- When the first part of an agenda is completed, the run goes on as its rest does. -/
theorem Completes.follows {after : List (String × Nat × Step)} {o : Outcome}
    (h : x.Completes lane units before entries added)
    (hmore : x.Follows lane units ids (before ++ added) more after o) :
    x.Follows lane units ids before (entries ++ more) after o := by
  cases hmore with
  | done hactions hdone =>
    exact .done (by rw [hactions, List.append_assoc]) (h.append hdone)
  | stopped hactions hstopped =>
    refine .stopped (by rw [hactions, List.append_assoc]) ?_
    rw [List.append_assoc]
    exact h.halts hstopped

/-- A run that halts on the way through an agenda halts on the way through any longer one. -/
theorem Halts.extend (h : x.Halts lane units ids before entries error added) :
    x.Halts lane units ids before (entries ++ more) error added where
  stops := by
    obtain ⟨rest, hrest, hstops⟩ := h.stops
    exact ⟨rest ++ more, by rw [hrest, List.append_assoc], hstops.extend⟩
  met := h.met

/-- Locks that are given back and reports do not undo that a run has halted. -/
theorem Halts.close (h : x.Halts lane units ids before entries error added)
    (hlater : ∀ action ∈ later, action.IsQuiet) :
    x.Halts lane units ids before entries error (added ++ later) where
  stops := by
    obtain ⟨rest, hrest, hstops⟩ := h.stops
    refine ⟨rest, ?_, hstops.close hlater⟩
    rw [hrest, Action.entries_append, Action.entries_of_quiet hlater, List.append_nil]
  met := by
    rw [Action.entries_append, Action.entries_of_quiet hlater, List.append_nil]
    exact h.met

/-- A run that has halted follows its agenda up to where it halted. -/
theorem Halts.follows {p : Progress} (hactions : p.actions = before ++ added)
    (h : x.Halts lane units ids before entries error added) :
    x.Follows lane units ids before entries [] (.error error, p) := by
  refine .stopped hactions ?_
  rw [List.append_nil]
  exact h

/-! Events around actions change nothing. -/

/-- What completes an agenda between two reports completes it together with them. -/
theorem Completes.between (first last : Event)
    (h : x.Completes lane units (before ++ [.reported first]) entries added) :
    x.Completes lane units before entries (.reported first :: added ++ [.reported last]) := by
  have hfirst : x.Completes lane units before [] [.reported first] :=
    .of_quiet (Action.isQuiet_reported first)
  have hlast : x.Completes lane units (before ++ (.reported first :: added)) [] [.reported last] :=
    .of_quiet (Action.isQuiet_reported last)
  rw [← List.append_nil entries]
  exact (hfirst.append h).append hlast

/-- What halts between two reports halts together with them. -/
theorem Halts.between (first last : Event)
    (h : x.Halts lane units ids (before ++ [.reported first]) entries error added) :
    x.Halts lane units ids before entries error (.reported first :: added ++ [.reported last]) := by
  have hfirst : x.Completes lane units before [] [.reported first] :=
    .of_quiet (Action.isQuiet_reported first)
  exact (hfirst.halts h).close (Action.isQuiet_reported last)

end composing

/-! ### One step -/

variable (x) in
/-- Taking the locks of a step is quiet. -/
theorem forall_isQuiet_acquiring (lane : Nat) (unit : BuildUnit) (step : Step) :
    ∀ action ∈ x.acquiring lane unit step, action.IsQuiet := by
  unfold acquiring
  split <;> simp [Action.IsQuiet, Action.call?, Action.request?]

variable (x) in
/-- Giving the locks of a step back is quiet. -/
theorem forall_isQuiet_releasing (lane : Nat) (unit : BuildUnit) (step : Step) :
    ∀ action ∈ x.releasing lane unit step, action.IsQuiet := by
  unfold releasing
  split <;> simp [Action.IsQuiet, Action.call?, Action.request?]

section performing

variable {units : List BuildUnit} {ids : List String} {lane : Nat} {unit : BuildUnit} {depth : Nat}
  {step : Step} {p : Progress} {added : List Action}
  (hunits : unit :: x.units.sorted ⊆ units) (hmet : x.unmet? step = none)
include hunits

variable (x lane step p) in
/-- What comes of resolving the needs of a step is the answer to the requests that it makes. -/
theorem answers_ensured :
    (x.resolver.forLane lane).Answers units (Action.requests p.actions)
      (x.ensured lane unit step p).result
      (x.ensured lane unit step p).requests :=
  (p.dependencies.answers_ensure _ x.units unit step).mono hunits

include hmet

/-- A step that is performed to its end completes the agenda on which it stands alone. -/
theorem Performs.completes (h : x.Performs lane unit depth step p (.ok ()) added) :
    x.Completes lane units p.actions [(unit.id, depth, step)] added := by
  have hanswers := x.answers_ensured lane step p hunits
  cases h with
  | succeeded hneeds hanswer =>
    rw [hneeds] at hanswers
    refine ⟨?_, ?_, ?_⟩
    · rw [Action.entries_append, Action.entries_requested]
      rfl
    · simpa using hmet
    · refine eachAfter_append.2 ⟨goesWell_requested hanswers.granted_of_ok, trivial, ?_, trivial,
        trivial⟩
      simpa [GoesWell] using hanswer

/-- A step that fails while it is performed halts on the agenda on which it stands alone. -/
theorem Performs.halts {error : BuildError}
    (h : x.Performs lane unit depth step p (.error error) added) :
    x.Halts lane units ids p.actions [(unit.id, depth, step)] error added := by
  have hanswers := x.answers_ensured lane step p hunits
  cases h with
  | unresolved hneeds =>
    rw [hneeds] at hanswers
    obtain ⟨earlier, request, heq, hgranted, hrefused⟩ := hanswers.exists_of_error
    have hentries : Action.entries ((x.ensured lane unit step p).requests.map .requested) = [] :=
      Action.entries_requested _
    refine ⟨⟨[(unit.id, depth, step)], ?_, ?_⟩, ?_⟩
    · rw [hentries]
      rfl
    · rw [heq, List.map_append]
      refine .unresolved (goesWell_requested hgranted) ?_ (List.forall_mem_nil _)
      rw [Action.requests_append, Action.requests_requested]
      exact hrefused
    · rw [hentries]
      exact List.forall_mem_nil _
  | @failed reasons hneeds hanswer =>
    rw [hneeds] at hanswers
    have hearlier : EachAfter (x.GoesWell lane units) p.actions
        ((x.ensured lane unit step p).requests.map .requested ++
          [.reported (.ofStep unit.id step.display (.started step.phase))]) :=
      eachAfter_append.2 ⟨goesWell_requested hanswers.granted_of_ok, trivial, trivial⟩
    have hentries : Action.entries ((x.ensured lane unit step p).requests.map .requested ++
        [.reported (.ofStep unit.id step.display (.started step.phase)),
          .ran (x.callOf lane unit depth step p), .reported (.ofStep unit.id step.display
            (.failed (failure unit step reasons).message))]) = [(unit.id, depth, step)] := by
      rw [Action.entries_append, Action.entries_requested]
      rfl
    refine ⟨⟨[], ?_, ?_⟩, ?_⟩
    · rw [hentries, List.append_nil]
    · rw [List.append_cons]
      refine .failed hearlier ?_ (Action.isQuiet_reported _)
      simpa using hanswer
    · rw [hentries]
      simpa using hmet

/-- A step that is performed is all that there is to run, or the run stops at it. -/
theorem follows_performStep : x.Follows lane units ids p.actions [(unit.id, depth, step)] []
    (x.performStep lane unit depth step p) := by
  obtain ⟨added, hactions, hperforms⟩ := x.performs_performStep lane unit depth step p
  have hacquiring : x.Completes lane units p.actions [] (x.acquiring lane unit step) :=
    .of_quiet (x.forall_isQuiet_acquiring lane unit step)
  have hreleasing := x.forall_isQuiet_releasing lane unit step
  generalize x.performStep lane unit depth step p = o at hactions hperforms
  obtain ⟨_ | _, q⟩ := o
  · have hhalts : x.Halts lane units ids p.actions [(unit.id, depth, step)] _ _ :=
      hacquiring.halts (hperforms.halts hunits hmet)
    exact .stopped hactions (hhalts.close hreleasing)
  · have hcompletes : x.Completes lane units p.actions [(unit.id, depth, step)] _ :=
      hacquiring.append (hperforms.completes hunits hmet)
    exact .done hactions (hcompletes.append (.of_quiet hreleasing))

end performing

/-! ### The recursion -/

variable (x)

/-- Whatever part of the executions is run, its agenda is followed. -/
theorem rules_follows {units : List BuildUnit} (ids : List String) (lane : Nat)
    (hunits : x.units.sorted ⊆ units) :
    x.Rules lane
      (fun unit depth execution p o => unit ∈ units →
        (∀ forked ∈ execution.allForked, forked.unit ∈ ids) →
        x.Follows lane units ids p.actions (x.agenda unit.id depth execution) [] o)
      (fun unit depth step targets p o => unit ∈ units →
        (∀ forked ∈ allForkedUnits targets, forked.unit ∈ ids) →
        x.Follows lane units ids p.actions (x.agendaUnits (depth + 1) targets)
          [(unit.id, depth, step)] o)
      (fun unit depth executions p o => unit ∈ units →
        (∀ forked ∈ allForkedList executions, forked.unit ∈ ids) →
        x.Follows lane units ids p.actions (x.agendaList unit.id depth executions) [] o) where
  refused hunmet hcli hunit hids := by
    -- What the step forks is left undone with it, although the agenda has it first.
    refine .stopped (List.append_nil _).symm ⟨⟨_, rfl, ?_⟩, ?_⟩
    · exact .unmet trivial hunmet hcli
    · exact List.forall_mem_nil _
  skipped hunmet hcli hunit hids := by
    rw [agenda_of_skipped hunmet hcli]
    exact .done rfl (.of_quiet (Action.isQuiet_reported _))
  performed hmet hforks hunit hids := by
    rw [agenda_eq (.inl hmet), hforks]
    exact follows_performStep (List.cons_subset.2 ⟨hunit, hunits⟩) hmet
  forkFailed hmet hforked hunit hids := by
    rw [agenda_eq (.inl hmet)]
    cases hforked hunit (allForked_eq ▸ hids) with
    | stopped hactions hstopped =>
      exact (hstopped.between _ _).follows (Action.append_between hactions)
  forkSucceeded {unit depth execution p q} hmet hforked hunit hids := by
    rw [agenda_eq (.inl hmet)]
    cases hforked hunit (allForked_eq ▸ hids) with
    | done hactions hdone =>
      have hstep : x.Follows lane units ids _ [(unit.id, depth, execution.step)] []
          (x.performStep lane unit depth execution.step
            (q.report (.ofFork unit.id execution.step.display .succeeded))) :=
        follows_performStep (List.cons_subset.2 ⟨hunit, hunits⟩) hmet
      rw [show (q.report _).actions = _ from Action.append_between hactions] at hstep
      exact (hdone.between _ _).follows hstep
  forkedNil hunit hids :=
    .done (List.append_nil _).symm (.of_quiet (List.forall_mem_nil _))
  lost hget hunit hids := by
    -- The step itself is still to come, so something is left even if its other work is empty.
    refine .stopped (List.append_nil _).symm ⟨⟨_, rfl, ?_⟩, ?_⟩
    · exact .outside trivial (hids _ (List.mem_cons_self ..)) hget
    · exact List.forall_mem_nil _
  targetFailed hget hall hunit hids := by
    obtain ⟨htarget, rfl⟩ := UnitGraph.get?_eq_some_iff.1 hget
    obtain ⟨hexecutions, -⟩ := List.forall_mem_append.1 (List.forall_mem_cons.1 hids).2
    cases hall (hunits (x.units.sorted_perm.mem_iff.2 htarget)) hexecutions with
    | stopped hactions hstopped =>
      rw [List.append_nil] at hstopped
      exact .stopped (Action.append_between hactions) (hstopped.between _ _).extend.extend
  targetSucceeded {unit target depth step id executions rest p q o} hget hall hrest hunit hids := by
    obtain ⟨htarget, rfl⟩ := UnitGraph.get?_eq_some_iff.1 hget
    obtain ⟨hexecutions, hothers⟩ := List.forall_mem_append.1 (List.forall_mem_cons.1 hids).2
    cases hall (hunits (x.units.sorted_perm.mem_iff.2 htarget)) hexecutions with
    | done hactions hdone =>
      have hmore := hrest hunit hothers
      rw [show (concludeTarget unit target step p (.ok (), q)).2.actions = _ from
        Action.append_between hactions] at hmore
      exact (hdone.between _ _).follows hmore
  nil hunit hids := .done (List.append_nil _).symm (.of_quiet (List.forall_mem_nil _))
  failed {unit depth execution rest p q error} hone hunit hids := by
    have hexecution := (List.forall_mem_append.1 hids).1
    cases hone hunit hexecution with
    | stopped hactions hstopped =>
      rw [List.append_nil] at hstopped
      exact hstopped.extend.follows hactions
  cons {unit depth execution rest p q o} hone hrest hunit hids := by
    obtain ⟨hexecution, hothers⟩ := List.forall_mem_append.1 hids
    cases hone hunit hexecution with
    | done hactions hdone =>
      have hmore := hrest hunit hothers
      rw [show Progress.actions _ = _ from hactions] at hmore
      exact hdone.follows hmore

/-- An executor runs its agenda from the start, in order. It succeeds if and only if it runs all of
it, the settings of the build allow every step of it, every step succeeds and every request for what
the steps need is granted. Otherwise it stops at the first step that fails, the first request that
is refused, the first step that was asked for by its goal and is not allowed, or the first fork on a
unit outside the build. -/
theorem execution_follows_agenda (lane : Nat) (unit : BuildUnit) (state : UnitState)
    (executions : List Execution) :
    let result := (x.execute lane unit state executions).1
    let actions := (x.execute lane unit state executions).2.2
    let agenda := x.agendaList unit.id 0 executions
    let units := unit :: x.units.sorted
    Action.entries actions <+: agenda ∧
      (result = .ok () ↔ Action.entries actions = agenda ∧
        (∀ entry ∈ agenda, x.unmet? entry.2.2 = none) ∧
        EachAfter (x.GoesWell lane units) [] actions) ∧
      ∀ error, result = .error error →
        ∃ rest, agenda = Action.entries actions ++ rest ∧
          (∀ entry ∈ Action.entries actions, x.unmet? entry.2.2 = none) ∧
          x.Stops lane units ((allForkedList executions).map (·.unit)) [] actions rest error := by
  obtain ⟨o, heq, hall⟩ := (x.rules_follows ((allForkedList executions).map (·.unit)) lane
    (List.subset_cons_self unit x.units.sorted)).execute unit state executions
  have hfollows := hall List.mem_cons_self fun _ hforked => List.mem_map_of_mem hforked
  rw [heq]
  cases hfollows with
  | @done p added hactions hdone =>
    obtain rfl : p.actions = added := hactions
    refine ⟨hdone.entries_eq ▸ List.prefix_rfl, ⟨fun _ => ?_, fun _ => rfl⟩, fun _ h => nomatch h⟩
    exact ⟨hdone.entries_eq, hdone.met, hdone.well⟩
  | @stopped p added error hactions hstopped =>
    obtain rfl : p.actions = added := hactions
    obtain ⟨rest, hrest, hstops⟩ := hstopped.stops
    rw [List.append_nil] at hrest
    refine ⟨⟨rest, hrest.symm⟩, ⟨fun h => (nomatch h), ?_⟩, ?_⟩
    · rintro ⟨hentries, -, hwell⟩
      have hnil : rest = [] := by
        rw [hentries] at hrest
        exact List.append_right_eq_self.1 hrest.symm
      exact absurd hnil (hstops.rest_ne_nil hwell)
    · intro other hother
      obtain rfl := Except.error.inj hother
      exact ⟨rest, hrest, hstopped.met, hstops⟩

end Executor

end PhasedBuild
