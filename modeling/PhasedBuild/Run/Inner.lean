import PhasedBuild.Run.Rules

/-!
# What an executor adds to the actions of a lane

Whatever a lane runs, it adds to its actions in two ways only: it reports steps and forked work, and
it performs steps.

* `Executor.Keeps` is a property of actions that neither of them breaks. It then holds after any
  list of executions (`Executor.Keeps.execute`).
* `Executor.isInner_execute`: an executor works on the inside of a unit's build. It never reports
  that a unit or the whole build has started or come to an end.
-/

namespace PhasedBuild

namespace Executor

variable (x : Executor)

/-- A property of the actions of a lane that neither reports nor steps break. -/
structure Keeps (lane : Nat) (P : List Action → Prop) : Prop where
  report : ∀ {actions : List Action} {event : Event}, event.isInner = true → P actions →
    P (actions ++ [.reported event])
  perform : ∀ (unit : BuildUnit) (depth : Nat) (step : Step) {p : Progress}, P p.actions →
    P (x.performStep lane unit depth step p).2.actions

namespace Keeps

variable {x : Executor} {lane : Nat} {P : List Action → Prop}

/-- A property that neither reports nor steps break is not broken by executions, forked work or
lists of executions. -/
theorem rules (h : x.Keeps lane P) :
    x.Rules lane (fun _ _ _ p o => P p.actions → P o.2.actions)
      (fun _ _ _ _ p o => P p.actions → P o.2.actions)
      (fun _ _ _ p o => P p.actions → P o.2.actions) where
  refused _ _ hp := hp
  skipped _ _ hp := h.report rfl hp
  performed _ _ hp := h.perform _ _ _ hp
  forkFailed _ hdone hp := h.report rfl (hdone (h.report rfl hp))
  forkSucceeded _ hdone hp := h.perform _ _ _ (h.report rfl (hdone (h.report rfl hp)))
  forkedNil hp := hp
  lost _ hp := hp
  targetFailed _ hdone hp := h.report rfl (hdone (h.report rfl hp))
  targetSucceeded _ hdone hrest hp := hrest (h.report rfl (hdone (h.report rfl hp)))
  nil hp := hp
  failed hdone hp := hdone hp
  cons hdone hrest hp := hrest (hdone hp)

/-- What holds of no actions at all holds of all that executions come to. -/
theorem execute (h : x.Keeps lane P) (hnil : P []) (unit : BuildUnit) (state : UnitState)
    (executions : List Execution) : P (x.execute lane unit state executions).2.2 := by
  obtain ⟨o, heq, hdone⟩ := h.rules.execute unit state executions
  rw [heq]
  exact hdone hnil

end Keeps

/-! ### One step -/

end Executor

/-- What a lane may do between taking the locks of a step and giving them back. -/
def Action.IsWithin (unit : BuildUnit) (owner : Owner) (step : Step) : Action → Prop
  | reported event => event.isInner = true
  | requested _ => True
  | locked _ _ => False
  | ran call => call.owner = owner ∧ call.unit = unit ∧ call.step = step
  | unlocked _ _ => False

/-- What is done within a step belongs to the inside of the build of its unit. -/
theorem Action.IsWithin.isInner {unit : BuildUnit} {owner : Owner} {step : Step} {action : Action}
    (h : action.IsWithin unit owner step) : action.isInner = true := by
  cases action with
  | reported event => exact h
  | requested _ => rfl
  | locked _ _ => rfl
  | ran _ => rfl
  | unlocked _ _ => rfl

namespace Executor

variable (x : Executor) (unit : BuildUnit) (depth : Nat) (step : Step) (p : Progress)

/-- Between its locks, a step does nothing but resolve what it needs, report and run. -/
theorem Performs.isWithin {x : Executor} {lane : Nat} {unit : BuildUnit} {depth : Nat} {step : Step}
    {p : Progress} {result : Except BuildError Unit} {added : List Action}
    (h : x.Performs lane unit depth step p result added) :
    ∀ action ∈ added, action.IsWithin unit ⟨lane, unit.id, step.display⟩ step := by
  have hrequested : ∀ action ∈ (x.ensured lane unit step p).requests.map Action.requested,
      action.IsWithin unit ⟨lane, unit.id, step.display⟩ step := by
    intro action haction
    obtain ⟨request, -, rfl⟩ := List.mem_map.1 haction
    trivial
  have hran : Action.IsWithin unit ⟨lane, unit.id, step.display⟩ step
      (.ran (x.callOf lane unit depth step p)) := ⟨rfl, rfl, rfl⟩
  cases h with
  | unresolved _ => exact hrequested
  | failed _ _ =>
    simp only [List.forall_mem_append, List.forall_mem_cons]
    exact ⟨hrequested, rfl, hran, rfl, List.forall_mem_nil _⟩
  | succeeded _ _ =>
    simp only [List.forall_mem_append, List.forall_mem_cons]
    exact ⟨hrequested, rfl, hran, rfl, List.forall_mem_nil _⟩

/-- A step is performed between its locks, if steps take locks. -/
theorem exists_actions_performStep (lane : Nat) :
    ∃ added, (∀ action ∈ added, action.IsWithin unit ⟨lane, unit.id, step.display⟩ step) ∧
      (x.performStep lane unit depth step p).2.actions = p.actions ++
        if x.locking then
          .locked ⟨lane, unit.id, step.display⟩ (Access.ofStep step.isAggregating) :: added ++
            [.unlocked ⟨lane, unit.id, step.display⟩ (Access.ofStep step.isAggregating)]
        else added := by
  obtain ⟨added, heq, hperforms⟩ := x.performs_performStep lane unit depth step p
  refine ⟨added, hperforms.isWithin, ?_⟩
  rw [heq]
  unfold acquiring releasing
  split <;> simp

/-! ### The inside of a unit's build -/

/-- All that an executor does on a unit belongs to the inside of its build. -/
theorem keeps_isInner (lane : Nat) :
    x.Keeps lane fun actions => ∀ action ∈ actions, action.isInner = true where
  report hevent hactions action haction := by
    rcases List.mem_append.1 haction with haction | haction
    · exact hactions action haction
    · obtain rfl := List.mem_singleton.1 haction
      exact hevent
  perform unit depth step p hactions action haction := by
    obtain ⟨added, hadded, heq⟩ := x.exists_actions_performStep unit depth step p lane
    rw [heq] at haction
    rcases List.mem_append.1 haction with haction | haction
    · exact hactions action haction
    split at haction
    next =>
      rcases List.mem_append.1 haction with haction | haction
      · rcases List.mem_cons.1 haction with rfl | haction
        · rfl
        · exact (hadded action haction).isInner
      · obtain rfl := List.mem_singleton.1 haction
        rfl
    next => exact (hadded action haction).isInner

/-- An executor reports nothing but steps and forked work. -/
theorem isInner_execute (lane : Nat) (unit : BuildUnit) (state : UnitState)
    (executions : List Execution) :
    ∀ action ∈ (x.execute lane unit state executions).2.2, action.isInner = true :=
  (x.keeps_isInner lane).execute (List.forall_mem_nil _) unit state executions

end Executor

end PhasedBuild
