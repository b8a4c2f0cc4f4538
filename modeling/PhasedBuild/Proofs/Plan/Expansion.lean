import PhasedBuild.Proofs.Plan.Offers

/-!
# Forked work place by place

An expanded execution is a tree: a step forks lists of executions, which fork again. What is at one
place of the tree depends on the step there, on its unit and on the guard, and on the log of the
planner only through the steps that are planned for the unit.

* `Planner.Expands` says so as a relation, with the steps that are planned for a unit left open.
* `Planner.ensures_expands`: all that the planner comes to is related in this way.
* `Execution.Reaches`: the way from an execution to one that is forked for it, at any depth.
* `Planner.Expands.of_reaches`: at the end of every way there is such an expansion again, and its
  guard holds what stands on the way.
-/

namespace PhasedBuild

namespace Planner

section relation

variable (offers : Step → BuildUnit → ForkSpec → List PlannedStep → Prop) (units : UnitGraph)

mutual

/-- An execution is a step on a unit with the work that it forks under a guard. `offers` tells the
steps that are planned for a fork on a unit, before the guard is asked. -/
inductive Expands : ForkGuard → BuildUnit → Step → Execution → Prop where
  | notForking {guard : ForkGuard} {unit : BuildUnit} {step : Step}
      (hfork : step.descriptor.fork = none) : Expands guard unit step ⟨step, .notForking⟩
  | forking {guard : ForkGuard} {unit : BuildUnit} {step : Step} {fork : ForkSpec}
      {forked : List (Forked Execution)} (hfork : step.descriptor.fork = some fork)
      (hforked : ExpandsOn (guard.insert step.key) step fork
        (forkTargets units unit step.isAggregating) forked) :
      Expands guard unit step ⟨step, .expanded forked⟩

/-- `Expands` for the work that a step forks on units. A unit for which nothing is left to do is not
mentioned. -/
inductive ExpandsOn : ForkGuard → Step → ForkSpec → List BuildUnit → List (Forked Execution) →
    Prop where
  | nil {guard : ForkGuard} {parent : Step} {fork : ForkSpec} : ExpandsOn guard parent fork [] []
  | idle {guard : ForkGuard} {parent : Step} {fork : ForkSpec} {target : BuildUnit}
      {rest : List BuildUnit} {steps : List PlannedStep} {forked : List (Forked Execution)}
      (hsteps : offers parent target fork steps) (hidle : ExpandsAll guard target steps [])
      (hrest : ExpandsOn guard parent fork rest forked) :
      ExpandsOn guard parent fork (target :: rest) forked
  | busy {guard : ForkGuard} {parent : Step} {fork : ForkSpec} {target : BuildUnit}
      {rest : List BuildUnit} {steps : List PlannedStep} {executions : List Execution}
      {forked : List (Forked Execution)} (hsteps : offers parent target fork steps)
      (hbusy : ExpandsAll guard target steps executions) (hne : executions ≠ [])
      (hrest : ExpandsOn guard parent fork rest forked) :
      ExpandsOn guard parent fork (target :: rest) (⟨target.id, executions⟩ :: forked)

/-- `Expands` for planned steps on a unit. Those that the guard holds are left out, and each of the
others is held from then on. -/
inductive ExpandsAll : ForkGuard → BuildUnit → List PlannedStep → List Execution → Prop where
  | nil {guard : ForkGuard} {target : BuildUnit} : ExpandsAll guard target [] []
  | held {guard : ForkGuard} {target : BuildUnit} {step : PlannedStep} {rest : List PlannedStep}
      {executions : List Execution} (hheld : guard.contains step.key = true)
      (hrest : ExpandsAll guard target rest executions) :
      ExpandsAll guard target (step :: rest) executions
  | new {guard : ForkGuard} {target : BuildUnit} {step : PlannedStep} {rest : List PlannedStep}
      {e : Execution} {executions : List Execution} (hnew : guard.contains step.key = false)
      (hstep : Expands (guard.insert step.key) target step.configure e)
      (hrest : ExpandsAll (guard.insert step.key) target rest executions) :
      ExpandsAll guard target (step :: rest) (e :: executions)

end

end relation

variable {p : Planner} {units : UnitGraph} {invariant : PlanningLog → Prop}
  {offers : Step → BuildUnit → ForkSpec → List PlannedStep → Prop}

/-- What the planner comes to is related to the steps that are planned for its forks. -/
theorem ensures_expands
    (hoffers : ∀ parent target fork,
      Planning.Ensures invariant (p.forkedSteps parent target fork) (offers parent target fork)) :
    (∀ guard unit step, Planning.Ensures invariant (p.expandStep units guard unit step)
      (Expands offers units guard unit step)) ∧
    (∀ guard parent fork targets,
      Planning.Ensures invariant (p.expandTargets units guard parent fork targets)
        (ExpandsOn offers units guard parent fork targets)) ∧
    (∀ guard target steps, p.Offers steps →
      Planning.Ensures invariant (p.expandSteps units guard target steps)
        (ExpandsAll offers units guard target steps)) := by
  -- the induction goes the way of the expansion
  refine Planner.expandStep.mutual_induct p units _ _ _ ?_ ?_ ?_ ?_ ?_ ?_ ?_
  · intro guard unit step hfork
    rw [expandStep, hfork]
    exact .pure (.notForking hfork)
  · intro guard unit step fork hfork ih
    rw [expandStep, hfork]
    exact ih.bind fun forked hforked => .pure (.forking hfork hforked)
  · intro guard parent fork
    rw [expandTargets]
    exact .pure .nil
  · intro guard parent fork target rest ihsteps ihrest
    rw [expandTargets]
    have hplanned := (hoffers parent target fork).and (offers_forkedSteps parent target fork)
    refine hplanned.bind fun steps ⟨hsteps, hcatalog⟩ => ?_
    refine (ihsteps steps hcatalog).bind fun executions hexecutions => ?_
    refine ihrest.bind fun forked hforked => .pure ?_
    split
    next hempty =>
      obtain rfl := List.isEmpty_iff.1 hempty
      exact .idle hsteps hexecutions hforked
    next hne => exact .busy hsteps hexecutions (fun hnil => hne (List.isEmpty_iff.2 hnil)) hforked
  · intro guard target _
    rw [expandSteps]
    exact .pure .nil
  · intro guard target step rest hmem ihstep ihrest hcatalog
    rw [expandSteps, dif_pos hmem]
    have hnew : guard.contains step.key = false := by simpa using (List.mem_filter.1 hmem).2
    refine ihstep.bind fun e he => ?_
    refine (ihrest (List.forall_mem_cons.1 hcatalog).2).bind fun executions hexecutions => ?_
    exact .pure (.new hnew he hexecutions)
  · intro guard target step rest hmem ihrest hcatalog
    rw [expandSteps, dif_neg hmem]
    obtain ⟨hstep, hrest⟩ := List.forall_mem_cons.1 hcatalog
    -- the step is of the catalog, so only the guard can keep it out
    have hheld : guard.contains step.key = true := by
      simpa [ForkGuard.unplanned, hstep] using hmem
    exact (ihrest hrest).imp fun executions hexecutions => .held hheld hexecutions

/-! ### One level -/

section level

variable {guard : ForkGuard} {unit target : BuildUnit} {step parent : Step} {fork : ForkSpec}
  {e : Execution} {targets : List BuildUnit} {forked : List (Forked Execution)}
  {steps : List PlannedStep} {executions : List Execution}

/-- An expanded execution is still one of the same step. -/
theorem Expands.step_eq (h : Expands offers units guard unit step e) : e.step = step := by
  cases h <;> rfl

/-- What a step forks is forked on units. -/
theorem Expands.forkedUnits (h : Expands offers units guard unit step e)
    (hfork : step.descriptor.fork = some fork) :
    ExpandsOn offers units (guard.insert step.key) step fork
      (forkTargets units unit step.isAggregating) e.forkedUnits := by
  cases h with
  | notForking hnone =>
    rw [hnone] at hfork
    cases hfork
  | forking hsome hforked =>
    obtain rfl := Option.some.inj (hsome.symm.trans hfork)
    exact hforked

/-- The units that a step forks on are some of those on which it may fork, in the same order. -/
theorem ExpandsOn.sublist (h : ExpandsOn offers units guard parent fork targets forked) :
    (forked.map (·.unit)).Sublist (targets.map (·.id)) := by
  induction targets generalizing forked with
  | nil =>
    cases h
    exact List.Sublist.refl _
  | cons target rest ih =>
    cases h with
    | idle _ _ hrest => exact (ih hrest).cons _
    | busy _ _ _ hrest => exact (ih hrest).cons_cons _

/-- Each list of forked executions is that of a unit. -/
theorem ExpandsOn.exists_of_mem (h : ExpandsOn offers units guard parent fork targets forked)
    {entry : Forked Execution} (hmem : entry ∈ forked) :
    entry.executions ≠ [] ∧ ∃ target ∈ targets, entry.unit = target.id ∧
      ∃ steps, offers parent target fork steps ∧
        ExpandsAll offers units guard target steps entry.executions := by
  induction targets generalizing forked with
  | nil =>
    cases h
    cases hmem
  | cons target rest ih =>
    have hlater {others : List (Forked Execution)}
        (hrest : ExpandsOn offers units guard parent fork rest others) (hmem : entry ∈ others) :
        entry.executions ≠ [] ∧ ∃ target' ∈ target :: rest, entry.unit = target'.id ∧
          ∃ steps, offers parent target' fork steps ∧
            ExpandsAll offers units guard target' steps entry.executions := by
      obtain ⟨hne, target', htarget, hof⟩ := ih hrest hmem
      exact ⟨hne, target', List.mem_cons_of_mem _ htarget, hof⟩
    cases h with
    | idle _ _ hrest => exact hlater hrest hmem
    | busy hsteps hbusy hne hrest =>
      rcases List.mem_cons.1 hmem with rfl | hmem
      · exact ⟨hne, target, List.mem_cons_self, rfl, _, hsteps, hbusy⟩
      · exact hlater hrest hmem

/-- Each execution of a list is that of a planned step. -/
theorem ExpandsAll.exists_of_mem (h : ExpandsAll offers units guard target steps executions)
    (hmem : e ∈ executions) : ∃ planned ∈ steps, e.step = planned.configure := by
  induction steps generalizing guard executions with
  | nil =>
    cases h
    cases hmem
  | cons first rest ih =>
    cases h with
    | held _ hrest =>
      obtain ⟨planned, hplanned, heq⟩ := ih hrest hmem
      exact ⟨planned, List.mem_cons_of_mem _ hplanned, heq⟩
    | new _ hstep hrest =>
      rcases List.mem_cons.1 hmem with rfl | hmem
      · exact ⟨first, List.mem_cons_self, hstep.step_eq⟩
      · obtain ⟨planned, hplanned, heq⟩ := ih hrest hmem
        exact ⟨planned, List.mem_cons_of_mem _ hplanned, heq⟩

/-- Each execution of a list is expanded under a guard that holds those before it too. -/
theorem ExpandsAll.exists_guard {before after : List Execution}
    (h : ExpandsAll offers units guard target steps (before ++ e :: after)) :
    ∃ inner : ForkGuard, Expands offers units (inner.insert e.step.key) target e.step e ∧
      ∀ key, inner.contains key = true ↔
        guard.contains key = true ∨ key ∈ before.map (·.step.key) := by
  generalize hall : before ++ e :: after = executions at h
  induction steps generalizing guard before executions with
  | nil =>
    cases h
    simp at hall
  | cons first rest ih =>
    cases h with
    | held _ hrest => exact ih _ hall hrest
    | new _ hstep hrest =>
      rcases before with _ | ⟨other, before⟩
      · obtain ⟨rfl, rfl⟩ := List.cons.inj hall
        have hkey : e.step.key = first.key := congrArg Step.key hstep.step_eq
        refine ⟨guard, ?_, fun key => by simp⟩
        rw [hkey, hstep.step_eq]
        exact hstep
      · obtain ⟨rfl, rfl⟩ := List.cons.inj hall
        have hkey : other.step.key = first.key := congrArg Step.key hstep.step_eq
        obtain ⟨inner, hinner, hholds⟩ := ih _ rfl hrest
        refine ⟨inner, hinner, fun key => ?_⟩
        rw [hholds]
        simp [hkey, or_assoc, or_comm]

end level

end Planner

/-! ### Places in forked work -/

/-- A turn on the way into forked work: a step forks a list on a unit, and some executions of the
list come before the one where the way goes on. -/
structure Turn where
  step : Step
  unit : String
  before : List Execution

/-- The identities of the step and of the executions that come before. -/
def Turn.keys (turn : Turn) : List StepKey :=
  turn.step.key :: turn.before.map (·.step.key)

namespace Execution

/-- The way from an execution on a unit to itself or to one that is forked for it, which runs on
another unit maybe. -/
inductive Reaches : String → Execution → List Turn → String → Execution → Prop where
  | self (id : String) (e : Execution) : Reaches id e [] id e
  | fork {id id' unit : String} {e inner place : Execution} {before after : List Execution}
      {turns : List Turn} (hforked : ⟨unit, before ++ inner :: after⟩ ∈ e.forkedUnits)
      (hinner : Reaches unit inner turns id' place) :
      Reaches id e (⟨e.step, unit, before⟩ :: turns) id' place

/-- The step with which a way begins stands on it. -/
theorem Reaches.key_cases {id id' : String} {e place : Execution} {turns : List Turn}
    (h : e.Reaches id turns id' place) :
    e.step.key ∈ turns.flatMap Turn.keys ∨ e.step.key = place.step.key := by
  cases h with
  | self => exact .inr rfl
  | fork =>
    refine .inl (List.mem_flatMap.2 ⟨_, List.mem_cons_self, ?_⟩)
    exact List.mem_cons_self

end Execution

namespace Planner

variable {units : UnitGraph} {offers : Step → BuildUnit → ForkSpec → List PlannedStep → Prop}

/-- Work is forked on the forking unit or on units of the build. -/
theorem mem_forkTargets_cases {unit target : BuildUnit} {aggregator : Bool}
    (h : target ∈ forkTargets units unit aggregator) : target = unit ∨ target ∈ units.units := by
  unfold forkTargets at h
  split at h
  next =>
    split at h
    next => exact .inl (List.mem_singleton.1 h)
    next => exact .inr (units.sorted_perm.mem_iff.1 (List.mem_of_mem_filter h))
  next => exact .inl (List.mem_singleton.1 h)

/-- At every place of an expanded execution there is an expanded execution. Its guard holds what the
first one did and what stands on the way, and nothing else. -/
theorem Expands.of_reaches {guard : ForkGuard} {unit : BuildUnit} {step : Step}
    {e place : Execution} {start id : String} {turns : List Turn}
    (h : Expands offers units guard unit step e) (hstart : unit.id = start)
    (hplace : e.Reaches start turns id place) :
    ∃ inner here, here.id = id ∧ (here = unit ∨ here ∈ units.units) ∧
      Expands offers units inner here place.step place ∧
      ∀ key, (inner.insert place.step.key).contains key = true ↔
        guard.contains key = true ∨ key ∈ turns.flatMap Turn.keys ∨ key = place.step.key := by
  induction hplace generalizing guard unit step with
  | self =>
    refine ⟨guard, unit, hstart, .inl rfl, ?_, fun key => by simp [or_comm]⟩
    rw [h.step_eq]
    exact h
  | fork hforked hinner ih =>
    obtain hfork | ⟨hfork, hon⟩ := h
    · cases hforked
    obtain ⟨-, target, htarget, hid, steps, -, hall⟩ := hon.exists_of_mem hforked
    obtain ⟨middle, hnext, hmiddle⟩ := hall.exists_guard
    obtain ⟨inner, here, hhere, hamong, hexpands, hholds⟩ := ih hnext hid.symm
    refine ⟨inner, here, hhere, ?_, hexpands, fun key => ?_⟩
    · rcases hamong with rfl | hmem
      · exact mem_forkTargets_cases htarget
      · exact .inr hmem
    · -- the step with which the rest of the way begins is held twice
      have hkey := hinner.key_cases
      rw [hholds, List.flatMap_cons, List.mem_append]
      simp only [ForkGuard.contains_insert, Bool.or_eq_true, decide_eq_true_eq, hmiddle, Turn.keys,
        List.mem_cons]
      grind

end Planner

end PhasedBuild
