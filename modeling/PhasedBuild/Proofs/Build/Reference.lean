import PhasedBuild.Proofs.Build.Lineup

/-!
# What the units of a build come to

`Ledger.settle` says what becomes of a unit in a stage without any regard to lanes, places or the
order of things: the unit is given up if a failure stands against it, and otherwise its plan
decides, or what its work comes to. The recursion goes from a unit to those that it depends on.

* `Ledger.settle_eq`: the equation of the recursion in terms of `Ledger.Blocked`.
* `Ledger.results`: the results of stages that are built one after the other, one for each unit of
  each stage (`Ledger.map_key_results`).
* `Ledger.skipped_iff`: which units are skipped, told by the results alone.
-/

namespace PhasedBuild

/-- What the work on a unit comes to if nothing but the unit, its state and its plan has a part in
it. -/
abbrev Effect := String → UnitState → ExecutionPlan → Except BuildError Unit × UnitState

/-- What decides what becomes of the units of a build. -/
structure BuildTerms where
  units : UnitGraph
  policy : FailurePolicy
  effect : Effect

/-- How a unit comes to its end with work that began in one state and has left another. -/
def Ending.ofWork (before : UnitState) : Except BuildError Unit × UnitState → Ending
  | (.ok (), state) => .succeeded (state.executed.length - before.executed.length) state.lastPhase
  | (.error error, state) =>
    .failed error (state.executed.length - before.executed.length) state.lastPhase

/-- How a lane ends is how work ends that began in the lane's first state. -/
theorem Lane.ending_eq (l : Lane) : l.ending = .ofWork l.before (l.work.result, l.work.state) := by
  unfold ending Ending.ofWork
  cases l.work.result <;> rfl

/-- What is left of the segments before: the units that failed there, and all states of units. -/
structure Ledger where
  failed : List String := []
  state : String → UnitState

namespace Ledger

variable (t : BuildTerms) (l : Ledger) (s : Stage)

/-- What becomes of a unit in a stage, and its state then. -/
def settle (id : String) : Ending × UnitState :=
  let isAgainst (failed : String) : Bool := (t.units.downstream failed).contains id
  let above := s.ids.filter isAgainst
  if t.policy = .failAtEnd ∧ (l.failed.any (fun failed => failed == id || isAgainst failed) ||
      above.attach.any fun ⟨other, _⟩ => (settle other).1.outcome = .failed) then
    (.skipped .blacklisted, l.state id)
  else
    match s.plans.get id with
    | .error error => (.failed error 0 none, l.state id)
    | .ok plan => (.ofWork (l.state id) (t.effect id (l.state id) plan),
      (t.effect id (l.state id) plan).2)
termination_by t.units.rank id
decreasing_by
  rename_i h
  have hdep := (List.mem_filter.1 h).2
  exact (UnitGraph.mem_downstream_iff.1 (List.contains_iff_mem.1 hdep)).rank_lt

/-- The units that fail in a stage. -/
def failures : List String :=
  s.ids.filter fun id => (l.settle t s id).1.outcome = .failed

/-- A failure stands against a unit: its own or that of a unit that it depends on in an earlier
segment, or in the same segment that of a unit that it depends on. -/
def Blocked (id : String) : Prop :=
  t.policy = .failAtEnd ∧
    ((∃ failed ∈ l.failed, failed = id ∨ t.units.DependsOn id failed) ∨
      ∃ failed ∈ l.failures t s, t.units.DependsOn id failed)

/-- What is left when a stage has been built. -/
def next : Ledger where
  failed := l.failed ++ l.failures t s
  state := fun id => if id ∈ s.ids then (l.settle t s id).2 else l.state id

/-- The result of a unit in a stage. -/
def result (id : String) : UnitResult :=
  (l.settle t s id).1.result id s.position

/-- The results of stages that are built one after the other. -/
def results (l : Ledger) : List Stage → List UnitResult
  | [] => []
  | stage :: rest => stage.ids.map (l.result t stage) ++ results (l.next t stage) rest

variable {t l s} {id : String}

/-! ### What becomes of a unit -/

/-- The failures in a stage are those of its units that fail when they are settled. -/
theorem mem_failures_iff {other : String} :
    other ∈ l.failures t s ↔ other ∈ s.ids ∧ (l.settle t s other).1.outcome = .failed := by
  rw [failures, List.mem_filter, decide_eq_true_eq]

/-- A unit is settled by what it depends on first, then by its plan, and then by its work. -/
theorem settle_eq : l.settle t s id =
    if t.policy = .failAtEnd ∧
      ((l.failed.any fun failed => failed == id || (t.units.downstream failed).contains id) ||
        (l.failures t s).any fun failed => (t.units.downstream failed).contains id) = true then
      (.skipped .blacklisted, l.state id)
    else
      match s.plans.get id with
      | .error error => (.failed error 0 none, l.state id)
      | .ok plan => (.ofWork (l.state id) (t.effect id (l.state id) plan),
        (t.effect id (l.state id) plan).2) := by
  have hany : ((s.ids.filter fun failed => (t.units.downstream failed).contains id).attach.any
      fun other => (l.settle t s other.1).1.outcome = .failed) =
      (l.failures t s).any fun failed => (t.units.downstream failed).contains id := by
    rw [Bool.eq_iff_iff]
    simp only [List.any_eq_true, List.mem_attach, true_and, Subtype.exists, List.mem_filter,
      mem_failures_iff, decide_eq_true_eq]
    constructor
    · rintro ⟨other, ⟨hmem, hdep⟩, hfailed⟩
      exact ⟨other, ⟨hmem, hfailed⟩, hdep⟩
    · rintro ⟨other, ⟨hmem, hfailed⟩, hdep⟩
      exact ⟨other, ⟨hmem, hdep⟩, hfailed⟩
  rw [settle, hany]

/-- Failures stand against units under one policy only, and by name: those of earlier segments and
those of the same one. -/
theorem blocked_iff : l.Blocked t s id ↔ t.policy = .failAtEnd ∧
    ((l.failed.any fun failed => failed == id || (t.units.downstream failed).contains id) ||
      (l.failures t s).any fun failed => (t.units.downstream failed).contains id) = true := by
  simp only [Blocked, Bool.or_eq_true, List.any_eq_true, beq_iff_eq, List.contains_iff_mem,
    UnitGraph.mem_downstream_iff]

/-- A unit against which a failure stands is skipped, and its state is left alone. -/
theorem settle_of_blocked (h : l.Blocked t s id) :
    l.settle t s id = (.skipped .blacklisted, l.state id) := by
  rw [settle_eq, if_pos (blocked_iff.1 h)]

/-- A unit without a plan fails if no failure stands against it. -/
theorem settle_of_error (h : ¬ l.Blocked t s id) {error : BuildError}
    (hplan : s.plans.get id = .error error) :
    l.settle t s id = (.failed error 0 none, l.state id) := by
  rw [settle_eq, if_neg (mt blocked_iff.2 h), hplan]

/-- A unit with a plan comes to what its work comes to if no failure stands against it. -/
theorem settle_of_ok (h : ¬ l.Blocked t s id) {plan : ExecutionPlan}
    (hplan : s.plans.get id = .ok plan) :
    l.settle t s id = (.ofWork (l.state id) (t.effect id (l.state id) plan),
      (t.effect id (l.state id) plan).2) := by
  rw [settle_eq, if_neg (mt blocked_iff.2 h), hplan]

/-- A unit is skipped if and only if a failure stands against it. -/
theorem outcome_settle_eq_skipped_iff :
    (l.settle t s id).1.outcome = .skipped ↔ l.Blocked t s id := by
  by_cases h : l.Blocked t s id
  · simp [settle_of_blocked h, Ending.outcome, h]
  · refine ⟨fun hskipped => ?_, fun hblocked => absurd hblocked h⟩
    cases hplan : s.plans.get id with
    | error error =>
      rw [settle_of_error h hplan] at hskipped
      cases hskipped
    | ok plan =>
      rw [settle_of_ok h hplan] at hskipped
      generalize t.effect id (l.state id) plan = effect at hskipped
      obtain ⟨result, state⟩ := effect
      cases result <;> cases hskipped

/-- Whatever holds of the failures of plans and of the failures of work holds of all failures. -/
theorem error_of_settle {P : BuildError → Prop}
    (hplans : ∀ error, s.plans.get id = .error error → P error)
    (hwork : ∀ before plan error, (t.effect id before plan).1 = .error error → P error)
    {error : BuildError} {steps : Nat} {lastPhase : Option String}
    (h : (l.settle t s id).1 = .failed error steps lastPhase) : P error := by
  by_cases hblocked : l.Blocked t s id
  · rw [settle_of_blocked hblocked] at h
    cases h
  · cases hplan : s.plans.get id with
    | error other =>
      rw [settle_of_error hblocked hplan] at h
      obtain ⟨rfl, -, -⟩ := Ending.failed.inj h
      exact hplans _ hplan
    | ok plan =>
      rw [settle_of_ok hblocked hplan] at h
      have hresult := hwork (l.state id) plan error
      generalize t.effect id (l.state id) plan = effect at h hresult
      obtain ⟨result, state⟩ := effect
      cases result with
      | ok _ => cases h
      | error other =>
        obtain ⟨rfl, -, -⟩ := Ending.failed.inj h
        exact hresult rfl

/-- The result of a unit is that of how it is settled. -/
theorem result_eq {ending : Ending} {state : UnitState} (h : l.settle t s id = (ending, state)) :
    l.result t s id = ending.result id s.position := by
  rw [result, h]

/-- There is one result for each unit of each stage, in the order of the stages. -/
theorem map_key_results (t : BuildTerms) (l : Ledger) (stages : List Stage) :
    (l.results t stages).map (fun r => (r.unit, r.segment)) = stages.flatMap Stage.pairs := by
  induction stages generalizing l with
  | nil => rfl
  | cons stage rest ih =>
    rw [results, List.map_append, ih, List.map_map, List.flatMap_cons]
    refine congrArg (· ++ _) (List.map_congr_left fun id _ => ?_)
    exact Prod.ext (Ending.unit_result _ _ _) (Ending.segment_result _ _ _)

/-! ### Which units are skipped -/

/-- A unit has a failure for its result exactly if it is among the failures of its stage. -/
theorem outcome_result_eq_failed_iff {other : String} (hother : other ∈ s.ids) :
    (l.result t s other).outcome = .failed ↔ other ∈ l.failures t s := by
  rw [mem_failures_iff, result, Ending.outcome_result]
  simp [hother]

/-- Every result belongs to one of the stages. -/
theorem exists_of_mem_results {stages : List Stage} {r : UnitResult} (h : r ∈ l.results t stages) :
    ∃ stage ∈ stages, r.segment = stage.position := by
  induction stages generalizing l with
  | nil => cases h
  | cons stage rest ih =>
    rcases List.mem_append.1 h with hhead | htail
    · obtain ⟨other, -, rfl⟩ := List.mem_map.1 hhead
      exact ⟨stage, List.mem_cons_self, Ending.segment_result _ _ _⟩
    · obtain ⟨later, hlater, hsegment⟩ := ih htail
      exact ⟨later, List.mem_cons_of_mem _ hlater, hsegment⟩

end Ledger

/-- A failure that stands against a unit, told by their results: it came in an earlier segment, to
the unit or to one that it depends on, or in the same segment to one that it depends on. -/
def UnitResult.StandsAgainst (units : UnitGraph) (failure r : UnitResult) : Prop :=
  failure.outcome = .failed ∧
    (failure.segment < r.segment ∧
        (failure.unit = r.unit ∨ units.DependsOn r.unit failure.unit) ∨
      failure.segment = r.segment ∧ units.DependsOn r.unit failure.unit)

namespace Ledger

variable {t : BuildTerms} {l : Ledger}

/-- The failures of a stage that stand against what comes in a later segment. -/
theorem exists_standsAgainst_later {s : Stage} {r : UnitResult} (h : s.position < r.segment) :
    (∃ failure ∈ s.ids.map (l.result t s), failure.StandsAgainst t.units r) ↔
      ∃ failed ∈ l.failures t s, failed = r.unit ∨ t.units.DependsOn r.unit failed := by
  constructor
  · rintro ⟨_, hmem, hfailed, hstands⟩
    obtain ⟨other, hother, rfl⟩ := List.mem_map.1 hmem
    refine ⟨other, (outcome_result_eq_failed_iff hother).1 hfailed, ?_⟩
    rw [result, Ending.unit_result, Ending.segment_result] at hstands
    rcases hstands with ⟨-, hagainst⟩ | ⟨hsame, -⟩
    · exact hagainst
    · omega
  · rintro ⟨other, hother, hagainst⟩
    have hids := (mem_failures_iff.1 hother).1
    refine ⟨_, List.mem_map_of_mem hids, (outcome_result_eq_failed_iff hids).2 hother, .inl ?_⟩
    rw [result, Ending.unit_result, Ending.segment_result]
    exact ⟨h, hagainst⟩

/-- The failures of a stage that stand against what comes in the same segment. -/
theorem exists_standsAgainst_same {s : Stage} {r : UnitResult} (h : r.segment = s.position) :
    (∃ failure ∈ s.ids.map (l.result t s), failure.StandsAgainst t.units r) ↔
      ∃ failed ∈ l.failures t s, t.units.DependsOn r.unit failed := by
  constructor
  · rintro ⟨_, hmem, hfailed, hstands⟩
    obtain ⟨other, hother, rfl⟩ := List.mem_map.1 hmem
    refine ⟨other, (outcome_result_eq_failed_iff hother).1 hfailed, ?_⟩
    rw [result, Ending.unit_result, Ending.segment_result] at hstands
    rcases hstands with ⟨hlt, -⟩ | ⟨-, hagainst⟩
    · omega
    · exact hagainst
  · rintro ⟨other, hother, hagainst⟩
    have hids := (mem_failures_iff.1 hother).1
    refine ⟨_, List.mem_map_of_mem hids, (outcome_result_eq_failed_iff hids).2 hother, .inr ?_⟩
    rw [result, Ending.unit_result, Ending.segment_result]
    exact ⟨h.symm, hagainst⟩

/-- A unit is skipped if and only if the policy gives units up and a failure stands against it, from
before or among the results. -/
theorem skipped_iff {stages : List Stage}
    (hordered : stages.Pairwise (·.position < ·.position)) {r : UnitResult}
    (hr : r ∈ l.results t stages) : r.outcome = .skipped ↔ t.policy = .failAtEnd ∧
      ((∃ failed ∈ l.failed, failed = r.unit ∨ t.units.DependsOn r.unit failed) ∨
        ∃ failure ∈ l.results t stages, failure.StandsAgainst t.units r) := by
  induction stages generalizing l with
  | nil => cases hr
  | cons stage rest ih =>
    obtain ⟨hfirst, hrest⟩ := List.pairwise_cons.1 hordered
    have hlater : ∀ other ∈ (l.next t stage).results t rest, stage.position < other.segment := by
      intro other hother
      obtain ⟨later, hmem, hsegment⟩ := exists_of_mem_results hother
      rw [hsegment]
      exact hfirst later hmem
    rw [results] at hr ⊢
    simp only [List.mem_append, or_and_right, exists_or]
    rcases List.mem_append.1 hr with hhead | htail
    · -- nothing that comes later stands against a result of this stage
      have hnone : ¬ ∃ failure ∈ (l.next t stage).results t rest,
          failure.StandsAgainst t.units r := by
        obtain ⟨id, -, rfl⟩ := List.mem_map.1 hhead
        rintro ⟨failure, hfailure, -, hstands⟩
        have hlt := hlater failure hfailure
        rw [result, Ending.segment_result] at hstands
        rcases hstands with ⟨hbefore, -⟩ | ⟨hsame, -⟩ <;> omega
      have hsegment : r.segment = stage.position := by
        obtain ⟨id, -, rfl⟩ := List.mem_map.1 hhead
        exact Ending.segment_result _ _ _
      rw [exists_standsAgainst_same hsegment, or_iff_left hnone]
      obtain ⟨id, -, rfl⟩ := List.mem_map.1 hhead
      rw [result, Ending.outcome_result, outcome_settle_eq_skipped_iff, Ending.unit_result]
      rfl
    · rw [ih hrest htail, exists_standsAgainst_later (hlater r htail)]
      simp only [next, List.mem_append, or_and_right, exists_or, or_assoc]

end Ledger

end PhasedBuild
