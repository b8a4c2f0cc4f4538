import PhasedBuild.Run.Rules

/-!
# How events are nested

A step, the forked work of a step and that work on one unit are each reported between an event that
starts them and one that ends them. These brackets are nested: they are closed in the reverse of the
order in which they were opened.

* `Nesting` is what is open at a point of a run, and `Nesting.next?` says which events may come next
  there.
* `Nesting.WellNested`: the events that go with a result, from a point on. If the run fails, they
  end with the failures of what is still open.
* `Action.Reports`: the brackets of steps are those of the steps that are run.
* `Executor.events_are_bracketed`: so it is with the events of an executor.
-/

namespace PhasedBuild

/-- What is open between the event that starts it and the one that ends it. -/
inductive Bracket where
  | step (unit step : String)
  /-- The forked work of a step. -/
  | fork (unit step : String)
  /-- The forked work of a step on one unit. -/
  | target (unit step forked : String)
deriving Repr, DecidableEq

/-- Whether a bracket is that of a step. -/
def Bracket.isStep : Bracket → Bool
  | .step _ _ => true
  | .fork _ _ => false
  | .target _ _ _ => false

/-- The bracket of a step that is run. -/
def StepCall.bracket (call : StepCall) : Bracket :=
  .step call.unit.id call.step.display

/-- The event that ends a bracket by its failure. -/
def Bracket.failed (error : String) : Bracket → Event
  | .step unit name => .ofStep unit name (.failed error)
  | .fork unit name => .ofFork unit name (.failed error)
  | .target unit name forked => .ofForkedUnit unit name forked (.failed error)

namespace Event

/-- The bracket that an event starts. -/
def opens? : Event → Option Bracket
  | .ofStep unit step (.started _) => some (.step unit step)
  | .ofFork unit step .started => some (.fork unit step)
  | .ofForkedUnit unit step forked .started => some (.target unit step forked)
  | _ => none

/-- The bracket that an event ends. -/
def closes? : Event → Option Bracket
  | .ofStep unit step .succeeded => some (.step unit step)
  | .ofStep unit step (.failed _) => some (.step unit step)
  | .ofFork unit step .succeeded => some (.fork unit step)
  | .ofFork unit step (.failed _) => some (.fork unit step)
  | .ofForkedUnit unit step forked .succeeded => some (.target unit step forked)
  | .ofForkedUnit unit step forked (.failed _) => some (.target unit step forked)
  | _ => none

/-- Whether an event tells of a failure. -/
def isFailure : Event → Bool
  | .ofUnit _ _ (.failed _) => true
  | .ofStep _ _ (.failed _) => true
  | .ofFork _ _ (.failed _) => true
  | .ofForkedUnit _ _ _ (.failed _) => true
  | _ => false

end Event

namespace Action

/-- The steps whose brackets are opened are those that are run, in the same order. -/
def Reports (actions : List Action) : Prop :=
  ((events actions).filterMap Event.opens?).filter Bracket.isStep =
    (calls actions).map StepCall.bracket

variable {actions others : List Action}

/-- Two lists of actions, each of which reports what it runs, do so together. -/
theorem Reports.append (h : Reports actions) (hothers : Reports others) :
    Reports (actions ++ others) := by
  unfold Reports at *
  simp only [events_append, calls_append, List.filterMap_append, List.filter_append,
    List.map_append, h, hothers]

end Action

/-- What is open at a point of a run on a unit. -/
structure Nesting where
  unit : String
  /-- The brackets that are open, the innermost first. -/
  brackets : List Bracket := []
  /-- The step whose forked work has just come to its end, and which comes next. -/
  forked : Option String := none
deriving Repr, DecidableEq

namespace Nesting

/-- Where a run on a unit starts: nothing is open. -/
def start (unit : String) : Nesting :=
  { unit }

/-- The unit whose executions are run; none inside a step, and between the units of a fork. -/
def current? (n : Nesting) : Option String :=
  match n.brackets with
  | [] => some n.unit
  | .target _ _ forked :: _ => some forked
  | .step _ _ :: _ => none
  | .fork _ _ :: _ => none

/-- Opens a bracket. -/
def opened (n : Nesting) (bracket : Bracket) : Nesting :=
  { n with brackets := bracket :: n.brackets, forked := none }

/-- Closes a bracket, which must be the innermost one. -/
def close? (n : Nesting) (bracket : Bracket) : Option Nesting :=
  match n.brackets with
  | [] => none
  | innermost :: outer =>
    if innermost = bracket then some { n with brackets := outer, forked := none } else none

/-- What is open after an event, if the event may come. The executions of a unit come in their place
only: inside the bracket of the unit. A step whose work has been forked comes right after that work,
which is done unit by unit inside the bracket of the fork. -/
def next? (n : Nesting) : Event → Option Nesting
  | .ofStep unit step (.started _) =>
    if n.current? = some unit ∧ (n.forked = none ∨ n.forked = some step) then
      some (n.opened (.step unit step))
    else none
  | .ofStep unit step .succeeded => n.close? (.step unit step)
  | .ofStep unit step (.failed _) => n.close? (.step unit step)
  | .ofStep unit _ (.skipped _) =>
    if n.current? = some unit ∧ n.forked = none then some n else none
  | .ofFork unit step .started =>
    if n.current? = some unit ∧ n.forked = none then some (n.opened (.fork unit step)) else none
  | .ofFork unit step .succeeded =>
    (n.close? (.fork unit step)).map fun after => { after with forked := some step }
  | .ofFork unit step (.failed _) => n.close? (.fork unit step)
  | .ofForkedUnit unit step forked .started =>
    if n.brackets.head? = some (.fork unit step) then some (n.opened (.target unit step forked))
    else none
  | .ofForkedUnit unit step forked .succeeded =>
    if n.forked = none then n.close? (.target unit step forked) else none
  | .ofForkedUnit unit step forked (.failed _) => n.close? (.target unit step forked)
  | .sessionStarted _ _ => none
  | .sessionEnded _ => none
  | .ofUnit _ _ _ => none

/-- What is open after events, if they may come. -/
def follow (n : Nesting) (events : List Event) : Option Nesting :=
  events.foldlM next? n

/-- The same point when no step has to come next. -/
def settled (n : Nesting) : Nesting :=
  { n with forked := none }

/-- The events that go with a result from a point on. A run that succeeds leaves open what was open;
one that fails closes what it has opened, by failures. -/
inductive WellNested (n : Nesting) : Except BuildError Unit → List Event → Prop where
  | done {events : List Event} (hfollow : n.follow events = some n.settled)
      (hnone : ∀ event ∈ events, event.isFailure = false) : WellNested n (.ok ()) events
  | failed {before : List Event} {inner : List Bracket} {m : Nesting} {error : BuildError}
      (hfollow : n.follow before = some m) (hbrackets : m.brackets = inner ++ n.brackets)
      (hnone : ∀ event ∈ before, event.isFailure = false) :
      WellNested n (.error error) (before ++ inner.map (·.failed error.message))

variable {n m : Nesting} {event : Event} {events others : List Event} {bracket : Bracket}

/-! ### Following events -/

/-- Events are followed one at a time. -/
theorem follow_cons : n.follow (event :: events) = (n.next? event).bind (·.follow events) :=
  List.foldlM_cons

/-- Events may be followed in two parts. -/
theorem follow_append : n.follow (events ++ others) = (n.follow events).bind (·.follow others) :=
  List.foldlM_append

/-- A point after which no step has to come is settled. -/
theorem settled_eq_self (h : n.forked = none) : n.settled = n := by
  cases n
  cases h
  rfl

/-- The innermost bracket can be closed, and then what was open outside of it is left. -/
theorem close?_eq {outer : List Bracket} (h : n.brackets = bracket :: outer) :
    n.close? bracket = some { n with brackets := outer, forked := none } := by
  unfold close?
  rw [h]
  exact if_pos rfl

/-- After a bracket has been opened no step has to come next. -/
theorem forked_opened : (n.opened bracket).forked = none :=
  rfl

/-- Closing the bracket that has just been opened leads back to where it was opened. -/
theorem close?_opened : (n.opened bracket).close? bracket = some n.settled :=
  close?_eq rfl

/-- A failure closes its bracket. -/
theorem next?_failed (error : String) : n.next? (bracket.failed error) = n.close? bracket := by
  cases bracket <;> rfl

/-- Failures close brackets, the innermost first. -/
theorem follow_failures (error : String) {inner outer : List Bracket}
    (h : n.brackets = inner ++ outer) :
    ∃ m, n.follow (inner.map (·.failed error)) = some m ∧ m.brackets = outer := by
  induction inner generalizing n with
  | nil => exact ⟨n, rfl, h⟩
  | cons bracket inner ih =>
    have hnext : n.next? (bracket.failed error) =
        some { n with brackets := inner ++ outer, forked := none } := by
      rw [next?_failed]
      exact close?_eq h
    rw [List.map_cons, follow_cons, hnext]
    exact ih rfl

/-- What is left after a bracket has been closed is what was open outside of it. -/
theorem brackets_of_close? (h : n.close? bracket = some m) :
    n.brackets = bracket :: m.brackets := by
  unfold close? at h
  split at h
  next => cases h
  next innermost outer heq =>
    obtain ⟨hinnermost, hm⟩ := Option.ite_none_right_eq_some.1 h
    obtain rfl := Option.some.inj hm
    rw [heq, hinnermost]

/-- An event opens a bracket, closes the innermost one or leaves the brackets as they are. -/
theorem brackets_of_next? (h : n.next? event = some m) :
    event.closes?.toList ++ m.brackets = event.opens?.toList ++ n.brackets := by
  have hopened : ∀ {allowed : Prop} [Decidable allowed] {bracket : Bracket},
      (if allowed then some (n.opened bracket) else none) = some m →
        m.brackets = bracket :: n.brackets := by
    intro allowed _ bracket h
    obtain rfl := Option.some.inj (Option.ite_none_right_eq_some.1 h).2
    rfl
  cases event with
  | sessionStarted _ _ => cases h
  | sessionEnded _ => cases h
  | ofUnit _ _ _ => cases h
  | ofStep unit step change =>
    cases change with
    | started phase => exact hopened h
    | succeeded => exact (brackets_of_close? h).symm
    | failed error => exact (brackets_of_close? h).symm
    | skipped reason =>
      obtain rfl := Option.some.inj (Option.ite_none_right_eq_some.1 h).2
      rfl
  | ofFork unit step change =>
    cases change with
    | started => exact hopened h
    | succeeded =>
      obtain ⟨k, hk, rfl⟩ := Option.map_eq_some_iff.1 h
      exact (brackets_of_close? hk).symm
    | failed error => exact (brackets_of_close? h).symm
  | ofForkedUnit unit step forked change =>
    cases change with
    | started => exact hopened h
    | succeeded => exact (brackets_of_close? (Option.ite_none_right_eq_some.1 h).2).symm
    | failed error => exact (brackets_of_close? h).symm

/-- As many events end a bracket as start it, but for those by which it was or stays open. -/
theorem count_of_follow (h : n.follow events = some m) (bracket : Bracket) :
    (events.filterMap Event.closes?).count bracket + m.brackets.count bracket =
      (events.filterMap Event.opens?).count bracket + n.brackets.count bracket := by
  have hcons : ∀ (f : Event → Option Bracket) (event : Event) (events : List Event),
      (event :: events).filterMap f = (f event).toList ++ events.filterMap f := by
    intro f event events
    rw [List.filterMap_cons]
    cases f event <;> rfl
  induction events generalizing n with
  | nil =>
    obtain rfl := Option.some.inj h
    rfl
  | cons event events ih =>
    rw [follow_cons] at h
    obtain ⟨k, hk, hm⟩ := Option.bind_eq_some_iff.1 h
    have hnext := congrArg (·.count bracket) (brackets_of_next? hk)
    have hrest := ih hm
    simp only [hcons, List.count_append] at hnext ⊢
    omega

/-! ### Nested events -/

/-- No events at all go with a success. -/
theorem WellNested.nothing (h : n.forked = none) : n.WellNested (.ok ()) [] :=
  .done (congrArg some (settled_eq_self h).symm) (List.forall_mem_nil _)

/-- A run may fail before anything has been reported. -/
theorem WellNested.failed_at_once (n : Nesting) (error : BuildError) :
    n.WellNested (.error error) [] := by
  have h : n.WellNested (.error error) ([] ++ [].map (Bracket.failed error.message)) :=
    .failed rfl rfl (List.forall_mem_nil _)
  exact h

/-- Events that are followed and tell of no failure may come first, if they leave open what was
open. -/
theorem WellNested.prepend {result : Except BuildError Unit}
    (hfollow : n.follow events = some m) (hnone : ∀ event ∈ events, event.isFailure = false)
    (hm : m.settled = n.settled) (h : m.WellNested result others) :
    n.WellNested result (events ++ others) := by
  cases h with
  | done hothers hothersNone =>
    refine .done ?_ (List.forall_mem_append.2 ⟨hnone, hothersNone⟩)
    rw [follow_append, hfollow, ← hm]
    exact hothers
  | @failed before inner m' error hbefore hbrackets hbeforeNone =>
    rw [← List.append_assoc]
    refine .failed (m := m') ?_ ?_ (List.forall_mem_append.2 ⟨hnone, hbeforeNone⟩)
    · rw [follow_append, hfollow]
      exact hbefore
    · have hsame : m.settled.brackets = n.settled.brackets := by rw [hm]
      rw [hbrackets]
      exact congrArg (inner ++ ·) hsame

/-- Failure inside a bracket that has been opened. -/
theorem WellNested.enclose {error : BuildError} (hnext : n.next? event = some (n.opened bracket))
    (hnone : event.isFailure = false) (h : (n.opened bracket).WellNested (.error error) events) :
    n.WellNested (.error error) (event :: events ++ [bracket.failed error.message]) := by
  cases h with
  | @failed before inner m _ hbefore hbrackets hbeforeNone =>
    have hevents : event :: (before ++ inner.map (·.failed error.message)) ++
        [bracket.failed error.message] =
        (event :: before) ++ (inner ++ [bracket]).map (·.failed error.message) := by
      simp
    rw [hevents]
    refine .failed (m := m) ?_ ?_ (List.forall_mem_cons.2 ⟨hnone, hbeforeNone⟩)
    · rw [follow_cons, hnext]
      exact hbefore
    · rw [hbrackets, List.append_assoc]
      rfl

/-- Success inside a bracket that has been opened, and what comes after it. -/
theorem WellNested.after_bracket {closing : Event} {result : Except BuildError Unit}
    (hnext : n.next? event = some (n.opened bracket))
    (hclosing : (n.opened bracket).next? closing = some m) (hm : m.settled = n.settled)
    (hnone : event.isFailure = false) (hclosingNone : closing.isFailure = false)
    (hinner : (n.opened bracket).WellNested (.ok ()) events) (h : m.WellNested result others) :
    n.WellNested result (event :: events ++ [closing] ++ others) := by
  cases hinner with
  | done hevents heventsNone =>
    refine .prepend ?_ ?_ hm h
    · rw [List.cons_append, follow_cons, hnext]
      show (n.opened bracket).follow (events ++ [closing]) = _
      rw [follow_append, hevents]
      show (n.opened bracket).follow [closing] = _
      rw [follow_cons, hclosing]
      rfl
    · exact List.forall_mem_append.2 ⟨List.forall_mem_cons.2 ⟨hnone, heventsNone⟩,
        List.forall_mem_singleton.2 hclosingNone⟩

end Nesting

namespace Executor

open Nesting

variable (x : Executor)

/-- From every point of some kind on, the events of a run that starts after some actions are
nested. -/
def Nests (start : Nesting → Prop) (before : List Action) (o : Outcome) : Prop :=
  ∃ added, o.2.actions = before ++ added ∧
    ∀ n, start n → n.WellNested o.1 (Action.events added)

/-- A point at which the executions of a unit are run. -/
def RunsOn (unit : String) (n : Nesting) : Prop :=
  n.current? = some unit ∧ n.forked = none

/-- A point at which the forked work of a step is done, between its units. -/
def ForksFor (unit step : String) (n : Nesting) : Prop :=
  n.brackets.head? = some (.fork unit step) ∧ n.forked = none

/-- The events of a step are nested where the executions of its unit are run, or where its forked
work has just been done. -/
theorem nests_performStep (lane : Nat) (unit : BuildUnit) (depth : Nat) (step : Step)
    (p : Progress) :
    Nests (fun n => n.current? = some unit.id ∧ (n.forked = none ∨ n.forked = some step.display))
      p.actions (x.performStep lane unit depth step p) := by
  obtain ⟨added, hactions, hperforms⟩ := x.performs_performStep lane unit depth step p
  refine ⟨_, hactions, ?_⟩
  intro n hn
  have hnext : n.next? (.ofStep unit.id step.display (.started step.phase)) =
      some (n.opened (.step unit.id step.display)) := if_pos hn
  simp only [Action.events_append, events_acquiring, events_releasing, List.nil_append,
    List.append_nil]
  generalize (x.performStep lane unit depth step p).1 = result at hperforms
  cases hperforms with
  | unresolved hneeds =>
    rw [Action.events_requested]
    exact .failed_at_once n _
  | @failed reasons hneeds hanswer =>
    rw [Action.events_append, Action.events_requested]
    exact (WellNested.failed_at_once _ _).enclose hnext rfl
  | succeeded hneeds hanswer =>
    rw [Action.events_append, Action.events_requested]
    have hclosing : (n.opened (.step unit.id step.display)).next?
        (.ofStep unit.id step.display .succeeded) = some n.settled := close?_opened
    have hlater : n.settled.WellNested (.ok ()) [] := .nothing rfl
    exact .after_bracket hnext hclosing rfl rfl rfl (.nothing rfl) hlater

/-- Executions, forked work and lists of executions have nested events wherever they may be run. -/
theorem rules_nests (lane : Nat) :
    x.Rules lane
      (fun unit _ _ p o => Nests (RunsOn unit.id) p.actions o)
      (fun unit _ step _ p o => Nests (ForksFor unit.id step.display) p.actions o)
      (fun unit _ _ p o => Nests (RunsOn unit.id) p.actions o) where
  refused _ _ := ⟨[], (List.append_nil _).symm, fun n _ => .failed_at_once n _⟩
  skipped {unit depth execution p fault} _ _ := by
    refine ⟨_, rfl, ?_⟩
    intro n hn
    have hnext : n.next? (.ofStep unit.id execution.step.display (.skipped fault.message)) =
        some n := if_pos hn
    refine .done ?_ (List.forall_mem_singleton.2 rfl)
    show n.follow [_] = _
    rw [follow_cons, hnext, settled_eq_self hn.2]
    rfl
  performed {unit depth execution p} _ _ := by
    obtain ⟨added, hactions, hadded⟩ := x.nests_performStep lane unit depth execution.step p
    exact ⟨added, hactions, fun n hn => hadded n ⟨hn.1, .inl hn.2⟩⟩
  forkFailed {unit depth execution p q error} _ hforked := by
    obtain ⟨added, hactions, hadded⟩ := hforked
    refine ⟨_, Action.append_between hactions, ?_⟩
    intro n hn
    have hnext : n.next? (.ofFork unit.id execution.step.display .started) =
        some (n.opened (.fork unit.id execution.step.display)) := if_pos hn
    rw [Action.events_between]
    exact (hadded _ ⟨rfl, rfl⟩).enclose hnext rfl
  forkSucceeded {unit depth execution p q} _ hforked := by
    obtain ⟨added, hactions, hadded⟩ := hforked
    obtain ⟨more, hmore, hnested⟩ := x.nests_performStep lane unit depth execution.step
      (q.report (.ofFork unit.id execution.step.display .succeeded))
    rw [show (q.report _).actions = _ from Action.append_between hactions,
      List.append_assoc] at hmore
    refine ⟨_, hmore, ?_⟩
    intro n hn
    have hnext : n.next? (.ofFork unit.id execution.step.display .started) =
        some (n.opened (.fork unit.id execution.step.display)) := if_pos hn
    have hclosing : (n.opened (.fork unit.id execution.step.display)).next?
        (.ofFork unit.id execution.step.display .succeeded) =
          some { n with forked := some execution.step.display } := by
      show ((n.opened _).close? _).map _ = _
      rw [close?_opened]
      rfl
    rw [Action.events_append, Action.events_between]
    exact .after_bracket hnext hclosing rfl rfl rfl (hadded _ ⟨rfl, rfl⟩)
      (hnested _ ⟨hn.1, .inr rfl⟩)
  forkedNil := ⟨[], (List.append_nil _).symm, fun n hn => .nothing hn.2⟩
  lost _ := ⟨[], (List.append_nil _).symm, fun n _ => .failed_at_once n _⟩
  targetFailed {unit target depth step id executions rest p q error} _ hall := by
    obtain ⟨added, hactions, hadded⟩ := hall
    refine ⟨_, Action.append_between hactions, ?_⟩
    intro n hn
    have hnext : n.next? (.ofForkedUnit unit.id step.display target.id .started) =
        some (n.opened (.target unit.id step.display target.id)) := if_pos hn.1
    rw [Action.events_between]
    exact (hadded _ ⟨rfl, rfl⟩).enclose hnext rfl
  targetSucceeded {unit target depth step id executions rest p q o} _ hall hrest := by
    obtain ⟨added, hactions, hadded⟩ := hall
    obtain ⟨more, hmore, hnested⟩ := hrest
    rw [show (concludeTarget unit target step p (.ok (), q)).2.actions = _ from
      Action.append_between hactions, List.append_assoc] at hmore
    refine ⟨_, hmore, ?_⟩
    intro n hn
    have hnext : n.next? (.ofForkedUnit unit.id step.display target.id .started) =
        some (n.opened (.target unit.id step.display target.id)) := if_pos hn.1
    have hclosing : (n.opened (.target unit.id step.display target.id)).next?
        (.ofForkedUnit unit.id step.display target.id .succeeded) = some n.settled := by
      rw [next?, if_pos forked_opened, close?_opened]
    rw [Action.events_append, Action.events_between]
    exact .after_bracket hnext hclosing rfl rfl rfl (hadded _ ⟨rfl, rfl⟩) (hnested _ ⟨hn.1, rfl⟩)
  nil := ⟨[], (List.append_nil _).symm, fun n hn => .nothing hn.2⟩
  failed hone := hone
  cons {unit depth execution rest p q o} hone hrest := by
    obtain ⟨added, hactions, hadded⟩ := hone
    obtain ⟨more, hmore, hnested⟩ := hrest
    rw [show Progress.actions _ = _ from hactions, List.append_assoc] at hmore
    refine ⟨_, hmore, ?_⟩
    intro n hn
    rw [Action.events_append]
    cases hadded n hn with
    | done hfollow hnone =>
      rw [settled_eq_self hn.2] at hfollow
      exact .prepend hfollow hnone rfl (hnested n hn)

/-! ### Steps that are run -/

/-- A step that is performed opens its bracket exactly if it is run. -/
theorem Performs.reports {x : Executor} {lane : Nat} {unit : BuildUnit} {depth : Nat} {step : Step}
    {p : Progress} {result : Except BuildError Unit} {added : List Action}
    (h : x.Performs lane unit depth step p result added) : Action.Reports added := by
  have hrequested : Action.Reports ((x.ensured lane unit step p).requests.map .requested) := by
    simp [Action.Reports]
  cases h with
  | unresolved hneeds => exact hrequested
  | failed hneeds hanswer => exact hrequested.append rfl
  | succeeded hneeds hanswer => exact hrequested.append rfl

/-- Performing a step under its locks reports what it runs. -/
theorem reports_performStep (lane : Nat) (unit : BuildUnit) (depth : Nat) (step : Step)
    {p : Progress} (hp : Action.Reports p.actions) :
    Action.Reports (x.performStep lane unit depth step p).2.actions := by
  obtain ⟨added, hactions, hperforms⟩ := x.performs_performStep lane unit depth step p
  have hacquiring : Action.Reports (x.acquiring lane unit step) := by simp [Action.Reports]
  have hreleasing : Action.Reports (x.releasing lane unit step) := by simp [Action.Reports]
  rw [hactions]
  exact hp.append ((hacquiring.append hperforms.reports).append hreleasing)

/-- Executions, forked work and lists of executions report what they run. -/
theorem rules_reports (lane : Nat) :
    x.Rules lane (fun _ _ _ p o => Action.Reports p.actions → Action.Reports o.2.actions)
      (fun _ _ _ _ p o => Action.Reports p.actions → Action.Reports o.2.actions)
      (fun _ _ _ p o => Action.Reports p.actions → Action.Reports o.2.actions) where
  refused _ _ hp := hp
  skipped _ _ hp := hp.append rfl
  performed _ _ hp := x.reports_performStep _ _ _ _ hp
  forkFailed _ hforked hp := (hforked (hp.append rfl)).append rfl
  forkSucceeded _ hforked hp := x.reports_performStep _ _ _ _ ((hforked (hp.append rfl)).append rfl)
  forkedNil hp := hp
  lost _ hp := hp
  targetFailed _ hall hp := (hall (hp.append rfl)).append rfl
  targetSucceeded _ hall hrest hp := hrest ((hall (hp.append rfl)).append rfl)
  nil hp := hp
  failed hone hp := hone hp
  cons hone hrest hp := hrest (hone hp)

/-- The events of an executor are nested. In the end all brackets are closed, each as often as it
was opened, and those of steps were opened for the steps that were run. If the executor succeeds, no
forked work is left without its step and nothing has failed. If it fails, nothing has failed up to
some point, and from there on what is open fails, the innermost bracket first. -/
theorem events_are_bracketed (lane : Nat) (unit : BuildUnit) (state : UnitState)
    (executions : List Execution) :
    let result := (x.execute lane unit state executions).1
    let actions := (x.execute lane unit state executions).2.2
    let events := Action.events actions
    (∃ n, (Nesting.start unit.id).follow events = some n ∧ n.brackets = []) ∧
      (∀ bracket, (events.filterMap Event.closes?).count bracket =
        (events.filterMap Event.opens?).count bracket) ∧
      Action.Reports actions ∧
      (result = .ok () → (Nesting.start unit.id).follow events = some (.start unit.id) ∧
        ∀ event ∈ events, event.isFailure = false) ∧
      ∀ error, result = .error error →
        ∃ before n, (Nesting.start unit.id).follow before = some n ∧
          (∀ event ∈ before, event.isFailure = false) ∧
          events = before ++ n.brackets.map (·.failed error.message) := by
  intro result actions events
  have hnested : (Nesting.start unit.id).WellNested result events := by
    obtain ⟨o, heq, added, hactions, hadded⟩ := (x.rules_nests lane).execute unit state executions
    obtain rfl : o.2.actions = added := hactions
    simp only [result, events, actions, heq]
    exact hadded _ ⟨rfl, rfl⟩
  have hreports : Action.Reports actions := by
    obtain ⟨o, heq, hreports⟩ := (x.rules_reports lane).execute unit state executions
    simp only [actions, heq]
    exact hreports rfl
  have hend : ∃ n, (Nesting.start unit.id).follow events = some n ∧ n.brackets = [] := by
    generalize result = r, events = es at hnested ⊢
    cases hnested with
    | done hfollow hnone => exact ⟨_, hfollow, rfl⟩
    | failed hfollow hbrackets hnone =>
      obtain ⟨n, hn, hnil⟩ := follow_failures _ hbrackets
      exact ⟨n, by rw [follow_append, hfollow]; exact hn, hnil⟩
  refine ⟨hend, ?_, hreports, ?_, ?_⟩
  · intro bracket
    obtain ⟨n, hfollow, hn⟩ := hend
    have hcount := count_of_follow hfollow bracket
    rw [hn] at hcount
    exact hcount
  · intro hok
    rw [hok] at hnested
    cases hnested with
    | done hfollow hnone => exact ⟨hfollow, hnone⟩
  · intro error herror
    rw [herror] at hnested
    generalize events = es at hnested ⊢
    cases hnested with
    | failed hfollow hbrackets hnone =>
      obtain rfl : _ = _ := hbrackets.trans (List.append_nil _)
      exact ⟨_, _, hfollow, hnone, rfl⟩

end Executor

end PhasedBuild
