import PhasedBuild.Run.Rules

/-!
# Forked work and the unit that forks it

Forked work is done on states of its own. The forking unit keeps its state, but for the place where
the copy stands that its step may see.

* `Outcome.andThen` goes on with work that has come to its end. Executions and forked work are a
  chain of such parts (`Executor.executeList_cons`, `Executor.executeForked_append`), and what
  fails breaks off in one of them (`Executor.exists_of_executeList_error`).
* `Executor.executeForked_leaves`: what forked work leaves as it is.
-/

namespace PhasedBuild

/-- Goes on with work that has come to its end. -/
def Outcome.andThen (o : Outcome) (work : Progress → Outcome) : Outcome :=
  match o with
  | (.error error, p) => (.error error, p)
  | (.ok (), p) => work p

namespace Outcome

@[simp] theorem andThen_ok (p : Progress) (work : Progress → Outcome) :
    andThen (.ok (), p) work = work p :=
  rfl

@[simp] theorem andThen_error (error : BuildError) (p : Progress) (work : Progress → Outcome) :
    andThen (.error error, p) work = (.error error, p) :=
  rfl

/-- It does not matter how work that goes on and on is grouped. -/
theorem andThen_assoc (o : Outcome) (work later : Progress → Outcome) :
    (o.andThen work).andThen later = o.andThen fun p => (work p).andThen later := by
  obtain ⟨_ | _, p⟩ := o <;> rfl

/-- Work in two parts fails in the first one or in the second one. -/
theorem andThen_eq_error {o : Outcome} {work : Progress → Outcome} {error : BuildError}
    {r : Progress} (h : o.andThen work = (.error error, r)) :
    o = (.error error, r) ∨ ∃ p, o = (.ok (), p) ∧ work p = (.error error, r) := by
  obtain ⟨_ | _, p⟩ := o
  · exact .inl h
  · exact .inr ⟨p, rfl, h⟩

/-- Work that goes on comes to its end only if both of its parts do. -/
theorem andThen_eq_ok {o : Outcome} {work : Progress → Outcome} {r : Progress}
    (h : o.andThen work = (.ok (), r)) : ∃ p, o = (.ok (), p) ∧ work p = (.ok (), r) := by
  obtain ⟨_ | _, p⟩ := o
  · cases h
  · exact ⟨p, rfl, h⟩

end Outcome

namespace Executor

variable (x : Executor) (lane : Nat) (unit : BuildUnit) (depth : Nat)

/-! ### One execution -/

/-- The forked work of a step between its events, if there is any. -/
def runForks (step : Step) (p : Progress) (units : List (Forked Execution)) : Outcome :=
  if units.isEmpty then (.ok (), p)
  else bracketFork unit step p fun p => x.executeForked lane unit depth step p units

/-- An execution runs its forked work first and then its step. -/
theorem executeOne_eq (p : Progress) (execution : Execution) :
    x.executeOne lane unit depth p execution = x.whenAllowed unit execution.step p fun p =>
      (x.runForks lane unit depth execution.step p execution.forkedUnits).andThen
        (x.performStep lane unit depth execution.step) := by
  obtain ⟨step, forks⟩ := execution
  cases forks <;> rfl

/-! ### Work in parts -/

section parts

variable {x lane unit depth} {step : Step}

@[simp] theorem executeForked_nil (p : Progress) :
    x.executeForked lane unit depth step p [] = (.ok (), p) := by
  unfold executeForked
  rfl

/-- Forked work is done on the first unit, and goes on with the others from what that leaves. -/
theorem executeForked_cons (p : Progress) (first : Forked Execution)
    (rest : List (Forked Execution)) :
    x.executeForked lane unit depth step p (first :: rest) =
      (x.executeForked lane unit depth step p [first]).andThen fun q =>
        x.executeForked lane unit depth step q rest := by
  obtain ⟨id, executions⟩ := first
  rw [executeForked, executeForked]
  cases x.units.get? id with
  | none => rfl
  | some target =>
    simp only [executeForked_nil]
    cases bracketTarget unit target step executions p _ with
    | mk result q => cases result <;> rfl

/-- Forked work may be cut anywhere between two of its units. -/
theorem executeForked_append (p : Progress) (first rest : List (Forked Execution)) :
    x.executeForked lane unit depth step p (first ++ rest) =
      (x.executeForked lane unit depth step p first).andThen fun q =>
        x.executeForked lane unit depth step q rest := by
  induction first generalizing p with
  | nil => simp
  | cons target first ih =>
    rw [List.cons_append, executeForked_cons, executeForked_cons p target first,
      Outcome.andThen_assoc]
    simp only [ih]

/-- Forked work that fails does so on one of its units, after it has come to its end on those
before. -/
theorem exists_of_executeForked_error {p r : Progress} {units : List (Forked Execution)}
    {error : BuildError} (h : x.executeForked lane unit depth step p units = (.error error, r)) :
    ∃ done failing rest q, units = done ++ failing :: rest ∧
      x.executeForked lane unit depth step p done = (.ok (), q) ∧
      x.executeForked lane unit depth step q [failing] = (.error error, r) := by
  induction units generalizing p with
  | nil => simp at h
  | cons first units ih =>
    rw [executeForked_cons] at h
    rcases Outcome.andThen_eq_error h with hfirst | ⟨q, hfirst, hrest⟩
    · exact ⟨[], first, units, p, rfl, executeForked_nil p, hfirst⟩
    · obtain ⟨done, failing, rest, q', rfl, hdone, hfailing⟩ := ih hrest
      refine ⟨first :: done, failing, rest, q', rfl, ?_, hfailing⟩
      rw [executeForked_cons, hfirst]
      exact hdone

@[simp] theorem executeList_nil (p : Progress) :
    x.executeList lane unit depth p [] = (.ok (), p) := by
  unfold executeList
  rfl

/-- A list of executions runs the first one and goes on with the others, after it has noted the
phase of the first step. -/
theorem executeList_cons (p : Progress) (execution : Execution) (rest : List Execution) :
    x.executeList lane unit depth p (execution :: rest) =
      (x.executeOne lane unit depth p execution).andThen fun q => x.executeList lane unit depth
        { q with state := q.state.enterPhase execution.step.phase } rest := by
  rw [executeList]
  cases x.executeOne lane unit depth p execution with
  | mk result q => cases result <;> rfl

/-- A list of executions that fails does so at one of them, after those before it have come to their
ends. -/
theorem exists_of_executeList_error {p r : Progress} {executions : List Execution}
    {error : BuildError} (h : x.executeList lane unit depth p executions = (.error error, r)) :
    ∃ before execution after q, executions = before ++ execution :: after ∧
      x.executeList lane unit depth p before = (.ok (), q) ∧
      x.executeOne lane unit depth q execution = (.error error, r) := by
  induction executions generalizing p with
  | nil => simp at h
  | cons first executions ih =>
    rw [executeList_cons] at h
    rcases Outcome.andThen_eq_error h with hfirst | ⟨q, hfirst, hrest⟩
    · exact ⟨[], first, executions, p, rfl, executeList_nil p, hfirst⟩
    · obtain ⟨before, execution, after, q', rfl, hbefore, hexecution⟩ := ih hrest
      refine ⟨first :: before, execution, after, q', rfl, ?_, hexecution⟩
      rw [executeList_cons, hfirst]
      exact hbefore

end parts

/-! ### What forked work leaves as it is -/

section leaving

variable (step : Step) (p : Progress)

/-- On one unit, forked work adds actions, and a copy if it is the forking unit itself. -/
theorem concludeTarget_leaves (target : BuildUnit) (o : Outcome) :
    (concludeTarget unit target step p o).2.state.copy = p.state.copy ∧
      (concludeTarget unit target step p o).2.dependencies = p.dependencies := by
  obtain ⟨_ | _, q⟩ := o
  · exact ⟨rfl, rfl⟩
  · refine ⟨?_, rfl⟩
    unfold concludeTarget
    simp only
    split <;> rfl

/-- Forked work on one unit neither changes the state of the forking unit, its copies apart, nor
what has been resolved for it. -/
theorem executeForked_singleton_leaves (forked : Forked Execution) :
    (x.executeForked lane unit depth step p [forked]).2.state.copy = p.state.copy ∧
      (x.executeForked lane unit depth step p [forked]).2.dependencies = p.dependencies := by
  obtain ⟨id, executions⟩ := forked
  unfold executeForked
  split
  next => exact ⟨rfl, rfl⟩
  next target _ =>
    simp only [executeForked_nil, bracketTarget_eq]
    have hleaves := concludeTarget_leaves unit step p target
      (x.executeList lane target (depth + 1) (enterTarget unit target step executions p) executions)
    split
    next heq => exact heq ▸ hleaves
    next heq => exact heq ▸ hleaves

/-- Forked work leaves the state of the forking unit as it is, but for the copy, and what has been
resolved for it. -/
theorem executeForked_leaves (units : List (Forked Execution)) :
    (x.executeForked lane unit depth step p units).2.state.copy = p.state.copy ∧
      (x.executeForked lane unit depth step p units).2.dependencies = p.dependencies := by
  induction units generalizing p with
  | nil => simp
  | cons first units ih =>
    have hfirst := x.executeForked_singleton_leaves lane unit depth step p first
    rw [executeForked_cons]
    cases hdone : x.executeForked lane unit depth step p [first] with
    | mk result q =>
      rw [hdone] at hfirst
      cases result with
      | error error => exact hfirst
      | ok _ => exact ⟨(ih q).1.trans hfirst.1, (ih q).2.trans hfirst.2⟩

/-- Forked work neither changes the state of the forking unit, its copies apart, nor what has been
resolved for it. -/
theorem runForks_leaves (units : List (Forked Execution)) :
    (x.runForks lane unit depth step p units).2.state.copy = p.state.copy ∧
      (x.runForks lane unit depth step p units).2.dependencies = p.dependencies := by
  unfold runForks bracketFork
  have hleaves := x.executeForked_leaves lane unit depth step
    (p.report (.ofFork unit.id step.display .started)) units
  split
  next => exact ⟨rfl, rfl⟩
  next =>
    split
    next heq =>
      simp only at heq
      rw [heq] at hleaves
      exact hleaves
    next heq =>
      simp only at heq
      rw [heq] at hleaves
      exact hleaves

end leaving

end Executor

/-! ### Events of forked work that fails -/

/-- Whether an event tells that the forked work of a step has failed. -/
def Event.isForkFailure : Event → Bool
  | .ofFork _ _ (.failed _) => true
  | _ => false

/-- Some forked work fails in the course of actions. -/
def Action.ForksFail (actions : List Action) : Prop :=
  ∃ event ∈ Action.events actions, event.isForkFailure = true

@[simp] theorem Action.forksFail_append {actions others : List Action} :
    ForksFail (actions ++ others) ↔ ForksFail actions ∨ ForksFail others := by
  simp only [ForksFail, events_append, List.mem_append, or_and_right, exists_or]

@[simp] theorem Action.not_forksFail_nil : ¬ ForksFail [] := by
  simp [ForksFail, events]

@[simp] theorem Action.forksFail_reported {event : Event} :
    ForksFail [.reported event] ↔ event.isForkFailure = true := by
  simp [ForksFail, events, event?]

/-- Work that starts after some actions adds to them, and if it comes to its end, no forked work has
failed in its course. -/
def Outcome.Adds (before : List Action) (o : Outcome) : Prop :=
  ∃ added, o.2.actions = before ++ added ∧ (o.1 = .ok () → ¬ Action.ForksFail added)

namespace Outcome

variable {before : List Action} {o : Outcome} {p : Progress}

/-- Work that does nothing adds nothing. -/
theorem Adds.refl (result : Except BuildError Unit) (p : Progress) :
    Adds p.actions (result, p) :=
  ⟨[], (List.append_nil _).symm, fun _ => Action.not_forksFail_nil⟩

/-- Work adds to its start if its first part comes to its end and its second part adds to that. -/
theorem Adds.trans (h : Adds before (.ok (), p)) (ho : o.Adds p.actions) : o.Adds before := by
  obtain ⟨added, hactions, hquiet⟩ := h
  obtain ⟨more, hmore, hmoreQuiet⟩ := ho
  refine ⟨added ++ more, ?_, fun hok => ?_⟩
  · rw [hmore, show p.actions = _ from hactions, List.append_assoc]
  · rw [Action.forksFail_append]
    exact not_or.2 ⟨hquiet rfl, hmoreQuiet hok⟩

/-- A report at the start of work adds to it unless it tells of forked work that has failed. -/
theorem Adds.report {event : Event} (h : event.isForkFailure = false)
    (ho : o.Adds (p.report event).actions) : o.Adds p.actions := by
  have hevent : Adds p.actions (.ok (), p.report event) := by
    refine ⟨[.reported event], rfl, fun _ => ?_⟩
    rw [Action.forksFail_reported, h]
    simp
  exact hevent.trans ho

/-- What fails may be told of in any way. -/
theorem Adds.close_error {error : BuildError} (h : Adds before (.error error, p)) (q : Progress)
    (event : Event) (hq : q.actions = p.actions ++ [.reported event]) :
    Adds before (.error error, q) := by
  obtain ⟨added, hactions, -⟩ := h
  refine ⟨added ++ [.reported event], ?_, fun hok => nomatch hok⟩
  rw [hq, show p.actions = _ from hactions, List.append_assoc]

/-- A report at the end of work that has come to its end adds to it unless it tells of forked work
that has failed. -/
theorem Adds.close_ok (h : Adds before (.ok (), p)) (q : Progress) {event : Event}
    (hevent : event.isForkFailure = false) (hq : q.actions = p.actions ++ [.reported event]) :
    Adds before (.ok (), q) :=
  h.trans (.report (p := p) hevent ⟨[], by rw [hq]; simp [Progress.report, Progress.act], by simp⟩)

end Outcome

namespace Executor

variable {x : Executor} {lane : Nat} {unit : BuildUnit} {depth : Nat} {step : Step} {p : Progress}

/-- Performing a step does no forked work, so none fails. -/
theorem Performs.not_forksFail {result : Except BuildError Unit} {added : List Action}
    (h : x.Performs lane unit depth step p result added) : ¬ Action.ForksFail added := by
  have hrequested : ¬ Action.ForksFail ((x.ensured lane unit step p).requests.map .requested) := by
    simp [Action.ForksFail]
  cases h with
  | unresolved _ => exact hrequested
  | failed _ _ =>
    rw [Action.forksFail_append]
    refine not_or.2 ⟨hrequested, ?_⟩
    simp [Action.ForksFail, Action.events, Action.event?, Event.isForkFailure]
  | succeeded _ _ =>
    rw [Action.forksFail_append]
    refine not_or.2 ⟨hrequested, ?_⟩
    simp [Action.ForksFail, Action.events, Action.event?, Event.isForkFailure]

variable (x lane unit depth step p) in
/-- While a step is performed, no forked work fails. -/
theorem performStep_adds_quietly :
    ∃ added, (x.performStep lane unit depth step p).2.actions = p.actions ++ added ∧
      ¬ Action.ForksFail added := by
  obtain ⟨added, hactions, hperforms⟩ := x.performs_performStep lane unit depth step p
  refine ⟨_, hactions, ?_⟩
  have hacquiring : ¬ Action.ForksFail (x.acquiring lane unit step) := by simp [Action.ForksFail]
  have hreleasing : ¬ Action.ForksFail (x.releasing lane unit step) := by simp [Action.ForksFail]
  simp only [Action.forksFail_append, not_or]
  exact ⟨⟨hacquiring, hperforms.not_forksFail⟩, hreleasing⟩

/-- Performing a step under its locks only adds actions. -/
theorem adds_performStep : (x.performStep lane unit depth step p).Adds p.actions := by
  obtain ⟨added, hactions, hquiet⟩ := x.performStep_adds_quietly lane unit depth step p
  exact ⟨added, hactions, fun _ => hquiet⟩

variable (x lane) in
/-- Executions, forked work and lists of executions only add actions, and forked work has failed in
the course of them only if they fail. -/
theorem rules_adds :
    x.Rules lane (fun _ _ _ p o => o.Adds p.actions) (fun _ _ _ _ p o => o.Adds p.actions)
      (fun _ _ _ p o => o.Adds p.actions) where
  refused _ _ := .refl _ _
  skipped _ _ := .report rfl (.refl _ _)
  performed _ _ := adds_performStep
  forkFailed _ hforked := (hforked.close_error _ _ rfl).report rfl
  forkSucceeded _ hforked := ((hforked.close_ok _ rfl rfl).report rfl).trans adds_performStep
  forkedNil := .refl _ _
  lost _ := .refl _ _
  targetFailed _ hall := (hall.close_error _ _ rfl).report rfl
  targetSucceeded _ hall hrest := ((hall.close_ok _ rfl rfl).report rfl).trans hrest
  nil := .refl _ _
  failed hone := hone
  cons hone hrest := hone.trans hrest

variable (x lane unit depth step p) in
/-- The forked work of a step only adds actions, and if it comes to its end no work that it has
forked in turn has failed. -/
theorem adds_runForks (units : List (Forked Execution)) :
    (x.runForks lane unit depth step p units).Adds p.actions := by
  have hforked := (x.rules_adds lane).executeForked unit depth step
    (p.report (.ofFork unit.id step.display .started)) units
  unfold runForks bracketFork
  split
  next => exact .refl _ _
  next =>
    split
    next q heq =>
      simp only at heq
      rw [heq] at hforked
      exact (hforked.close_ok _ rfl rfl).report rfl
    next error q heq =>
      simp only at heq
      rw [heq] at hforked
      exact (hforked.close_error _ _ rfl).report rfl

/-- Forked work whose step does not come to run says so. -/
theorem forksFail_of_runForks_error {units : List (Forked Execution)} {error : BuildError}
    {r : Progress} (h : x.runForks lane unit depth step p units = (.error error, r)) :
    Action.ForksFail r.actions := by
  unfold runForks at h
  split at h
  next => cases h
  next =>
    unfold bracketFork at h
    split at h
    next => cases h
    next error' q _ =>
      obtain ⟨-, rfl⟩ := Prod.mk.inj h
      show Action.ForksFail (q.actions ++ [_])
      rw [Action.forksFail_append]
      exact .inr (Action.forksFail_reported.2 rfl)

/-- If forked work has failed by the end of an execution, it is that of the execution. -/
theorem runForks_of_forksFail {execution : Execution} {error : BuildError} {r : Progress}
    (hquiet : ¬ Action.ForksFail p.actions)
    (h : x.executeOne lane unit depth p execution = (.error error, r))
    (hfail : Action.ForksFail r.actions) :
    x.runForks lane unit depth execution.step p execution.forkedUnits = (.error error, r) := by
  rw [executeOne_eq] at h
  unfold whenAllowed at h
  split at h
  next =>
    rcases Outcome.andThen_eq_error h with hforks | ⟨q, hforks, hstep⟩
    · exact hforks
    · -- The forked work has come to its end then, and the step itself forks nothing.
      exfalso
      obtain ⟨added, hactions, hadded⟩ :=
        x.adds_runForks lane unit depth execution.step p execution.forkedUnits
      obtain ⟨more, hmore, hmoreQuiet⟩ :=
        x.performStep_adds_quietly lane unit depth execution.step q
      rw [hforks] at hactions hadded
      rw [hstep, show q.actions = _ from hactions] at hmore
      rw [show r.actions = _ from hmore] at hfail
      simp only [Action.forksFail_append] at hfail
      rcases hfail with (hfail | hfail) | hfail
      · exact hquiet hfail
      · exact hadded rfl hfail
      · exact hmoreQuiet hfail
  next fault _ =>
    exfalso
    split at h
    next =>
      obtain ⟨-, rfl⟩ := Prod.mk.inj h
      exact hquiet hfail
    next => cases h

end Executor

end PhasedBuild
