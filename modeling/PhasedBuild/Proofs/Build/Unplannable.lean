import Mathlib.Data.List.Pairwise
import PhasedBuild.Proofs.Build.Determinism
import PhasedBuild.Proofs.Build.Halting
import PhasedBuild.Proofs.Plan.Faults
import PhasedBuild.Proofs.Plan.Mappings

/-!
# Units that have no plan

A unit whose plan cannot be told fails when its turn comes, unless it is skipped. What that means
for the build is decided by the kind of the error.

* `BuildRun.Answered`: every result is one of a stage, and that of a unit without a plan is the
  error that stands in the place of the plan.
* `BuildRun.HaltedForReason`: a build has been stopped by one of the failures of its summary.
* `Session.unplannable_unit_halts_by_kind`: after which errors no unit is started any more.
-/

namespace PhasedBuild

/-- Two stages in which a unit takes part are at different positions. -/
theorem Lineup.stage_eq {g : UnitGraph} {stages : List Stage} (h : Lineup g stages)
    {stage other : Stage} (hstage : stage ∈ stages) (hother : other ∈ stages) {id : String}
    (hid : id ∈ stage.ids) (hid' : id ∈ other.ids) (hposition : stage.position = other.position) :
    stage = other := by
  by_contra hne
  have hsymm : Std.Symm (Function.onFun List.Disjoint Stage.pairs) :=
    ⟨fun _ _ h => List.Disjoint.symm h⟩
  have hdisjoint := (List.nodup_flatMap.1 h.nodup_pairs).2.forall hstage hother hne
  exact hdisjoint (Stage.mem_pairs_iff.2 ⟨hid, rfl⟩) (Stage.mem_pairs_iff.2 ⟨hid', hposition⟩)

/-- What a unit of a stage comes to if there is no plan for it: it fails without a step for the
error in the place of the plan, unless it is skipped. -/
def Stage.Wants (stage : Stage) (id : String) (ending : Ending) : Prop :=
  ∀ error, stage.plans.get id = .error error → ending.outcome ≠ .skipped →
    ending = .failed error 0 none

namespace BuildStatus

variable {units : UnitGraph} {policy : FailurePolicy} {status : BuildStatus} {id : String}
  {ending : Ending}

/-- Nothing stops a build but a failure that stops builds. -/
theorem stops_of_halted_after (segment : Nat)
    (h : (status.after units policy id ending).halted = true) :
    status.halted = true ∨ (ending.result id segment).Stops policy := by
  cases ending with
  | succeeded _ _ => exact .inl h
  | skipped _ => exact .inl h
  | failed error _ _ =>
    by_cases hkind : error.kind = .configuration
    · exact .inr ⟨rfl, .inl (congrArg some hkind)⟩
    · have hplain : error.isConfiguration = false := beq_eq_false_iff_ne.2 hkind
      cases policy with
      | failFast => exact .inr ⟨rfl, .inr rfl⟩
      | failAtEnd =>
        rw [BuildStatus.after, hplain] at h
        exact .inl h
      | failNever =>
        rw [BuildStatus.after, hplain] at h
        exact .inl h

end BuildStatus

namespace BuildRun

variable {rules : BuildRules} {stages : List Stage} {b b' : BuildRun}

/-! ### Results -/

/-- Every result is that of a unit of a stage with what the unit comes to. -/
def Answered (stages : List Stage) (b : BuildRun) : Prop :=
  ∀ result ∈ b.summary.results, ∃ stage ∈ stages, ∃ ending,
    result.unit ∈ stage.ids ∧ stage.Wants result.unit ending ∧
      result = ending.result result.unit stage.position

/-- A unit that comes to the end that it wants is answered. -/
theorem Answered.close (hb : b.Sound rules stages) (h : b.Answered stages) {id : String}
    {ending : Ending} (hid : id ∈ b.stage.ids) (hwants : b.stage.Wants id ending) :
    (b.close rules id ending).Answered stages := by
  intro result hresult
  rcases List.mem_append.1 hresult with hold | hnew
  · exact h result hold
  · obtain rfl := List.mem_singleton.1 hnew
    refine ⟨b.stage, hb.stage_mem, ending, ?_, ?_, ?_⟩
    · rw [ending.unit_result]
      exact hid
    · rw [ending.unit_result]
      exact hwants
    · rw [ending.unit_result]

/-- A refused unit is skipped, or it fails for the error in the place of its plan. -/
theorem PlansKept.wants_of_refusal (hb : b.Sound rules stages) (h : b.PlansKept rules)
    {id : String} {ending : Ending} {plans : UnitPlans} (hready : id ∈ b.schedule.ready)
    (hrefusal : Refusal b id ending plans) : b.stage.Wants id ending := by
  intro error herror houtcome
  cases hrefusal with
  | skip _ => exact absurd rfl houtcome
  | @unplanned found _ hplan =>
    rw [h.get_of_mem_ready hb hready, herror] at hplan
    rw [Except.error.inj hplan]

/-- A lane is active on a unit that has a plan. -/
theorem PlansKept.wants_of_active (h : b.PlansKept rules) {lane : Lane} (hlane : lane ∈ b.active)
    (ending : Ending) : b.stage.Wants lane.unit ending := by
  intro error herror _
  obtain ⟨plan, hplan, -⟩ := h.lanes lane hlane
  rw [hplan] at herror
  cases herror

/-- No step of a build answers a unit with anything else than it comes to. -/
theorem Answered.step (hb : b.Sound rules stages) (hplans : b.PlansKept rules)
    (h : b.Answered stages) (hstep : Step rules b b') : b'.Answered stages := by
  cases hstep with
  | idle => exact h
  | advance hstep =>
    cases hstep with
    | onward _ => exact h
    | refuse hposition hrefusal =>
      have hready := hb.mem_ready hposition
      exact h.close hb (hb.mem_ids_of_mem_ready hready)
        (hplans.wants_of_refusal hb hready hrefusal)
    | start _ _ _ _ => exact h
    | @record lane _ delivered _ hdelivered =>
      have hlane := mem_active_of_delivered hdelivered
      exact h.close hb (hb.mem_ids_of_mem_active hlane)
        (hplans.wants_of_active hlane lane.ending)
    | enter _ _ => exact h
  | act _ _ => exact h
  | deliver _ _ _ => exact h
  | release _ => exact h

/-! ### What has stopped a build -/

/-- A build that has been stopped has been stopped by a failure. -/
def HaltedForReason (rules : BuildRules) (b : BuildRun) : Prop :=
  b.status.halted = true → ∃ result ∈ b.summary.results, result.Stops rules.policy

/-- When a unit comes to its end the build is stopped for its failure only. -/
theorem HaltedForReason.close (h : b.HaltedForReason rules) (id : String) (ending : Ending) :
    (b.close rules id ending).HaltedForReason rules := by
  intro hhalted
  rcases BuildStatus.stops_of_halted_after b.stage.position hhalted with hbefore | hstops
  · obtain ⟨result, hresult, hstops⟩ := h hbefore
    exact ⟨result, List.mem_append_left _ hresult, hstops⟩
  · exact ⟨_, List.mem_append_right _ (List.mem_singleton_self _), hstops⟩

/-- No step of a build stops it without a failure. -/
theorem HaltedForReason.step (h : b.HaltedForReason rules) (hstep : Step rules b b') :
    b'.HaltedForReason rules := by
  cases hstep with
  | idle => exact h
  | advance hstep =>
    cases hstep with
    | onward _ => exact h
    | refuse _ _ => exact h.close _ _
    | start _ _ _ _ => exact h
    | record _ _ => exact h.close _ _
    | enter _ _ => exact h
  | act _ _ => exact h
  | deliver _ _ _ => exact h
  | release _ => exact h

end BuildRun

/-! ### Builds of sessions -/

namespace Session

open BuildRun

variable (s : Session) (work : Work) (segments : List Segment)

/-- A unit wants a plan only for a reason for which planning can fail. -/
theorem hindersPlan_of_get {stage : Stage} (hstage : stage ∈ s.stages {} 0 segments) {id : String}
    (hid : id ∈ stage.ids) {error : BuildError} (h : stage.plans.get id = .error error) :
    error.fault.HindersPlan := by
  obtain ⟨unit, -, -, tasks, log, hplan⟩ := s.exists_plan_of_get segments hstage hid h
  exact s.planner.failsFor_plan s.units unit tasks log error hplan

/-- At every moment of a build, every result is what its unit comes to. -/
theorem answered_buildAfter (moves : List Move) :
    (s.buildAfter work segments moves).Answered ({} :: s.stages {} 0 segments) :=
  s.buildAfter_induction work segments (fun _ hresult => absurd hresult List.not_mem_nil)
    (fun hb hplans hanswered hstep => hanswered.step hb hplans hstep) moves

/-- A build has been stopped if and only if its summary has a failure that stops builds. -/
theorem halted_iff (moves : List Move) :
    (s.buildAfter work segments moves).status.halted = true ↔
      ∃ result ∈ (s.buildAfter work segments moves).summary.results,
        result.Stops s.settings.policy := by
  constructor
  · have hreason : (s.buildAfter work segments moves).HaltedForReason (s.rules work) :=
      after_induction (fun hb hstep => HaltedForReason.step hb hstep)
        (fun hhalted => absurd hhalted Bool.false_ne_true) moves
    exact hreason
  · rintro ⟨result, hresult, hstops⟩
    exact s.heeded_buildAfter work segments moves result hresult hstops

/-- A unit that has a result although there is no plan for it, and that has not been skipped, has
failed for the error in the place of its plan, without a step. That failure stops the build if a
phase or the packaging of the unit is to blame, or if the policy is `failFast`; where a plugin, a
goal or a step that is not runnable is to blame, no other policy stops the build for it. A build has
been stopped if and only if there is a failure that stops builds, and then no unit is started any
more. -/
theorem unplannable_unit_halts_by_kind (moves later : List Move) {stage : Stage}
    (hstage : stage ∈ s.stages {} 0 segments) {error : BuildError} {result : UnitResult}
    (hresult : result ∈ (s.buildAfter work segments moves).summary.results)
    (hid : result.unit ∈ stage.ids) (hsegment : result.segment = stage.position)
    (hplan : stage.plans.get result.unit = .error error) (houtcome : result.outcome ≠ .skipped) :
    let b := s.buildAfter work segments moves
    let b' := s.buildAfter work segments (moves ++ later)
    result = .failure result.unit stage.position error 0 0 none ∧
    error.fault.HindersPlan ∧
    (error.kind = .configuration ∧ error.fault.DeniesPhase ∨
      error.kind = .resolution ∧ ¬ error.fault.DeniesPhase) ∧
    (result.Stops s.settings.policy ↔
      error.fault.DeniesPhase ∨ s.settings.policy = .failFast) ∧
    (b.status.halted = true ↔ ∃ r ∈ b.summary.results, r.Stops s.settings.policy) ∧
    (b.status.halted = true → ∃ new, b'.trace = b.trace ++ new ∧
      ∀ entry ∈ new, ¬ entry.IsStart) := by
  intro b b'
  have hfault := s.hindersPlan_of_get segments hstage hid hplan
  have hkind : error.kind = .configuration ∧ error.fault.DeniesPhase ∨
      error.kind = .resolution ∧ ¬ error.fault.DeniesPhase := hfault.kind_cases
  have hfailure : result = .failure result.unit stage.position error 0 0 none := by
    obtain ⟨other, hother, ending, hid', hwants, heq⟩ :=
      s.answered_buildAfter work segments moves result hresult
    have hposition : stage.position = other.position := by
      rw [← hsegment, heq, ending.segment_result]
    obtain rfl :=
      (s.lineup segments).stage_eq (List.mem_cons_of_mem _ hstage) hother hid hid' hposition
    have hnot : ending.outcome ≠ .skipped := by
      rw [← ending.outcome_result result.unit stage.position, ← heq]
      exact houtcome
    rw [hwants error hplan hnot] at heq
    exact heq
  refine ⟨hfailure, hfault, hkind, ?_, s.halted_iff work segments moves, ?_⟩
  · rw [hfailure]
    show (_ ∧ (some error.kind = some .configuration ∨ _)) ↔ _
    rcases hkind with ⟨hkind, hphase⟩ | ⟨hkind, hphase⟩
    · simp [hkind, hphase, UnitResult.failure]
    · simp [hkind, hphase, UnitResult.failure]
  · intro hhalted
    have hdown : b.WindsDown b' := by
      rw [show b' = b.after (s.rules work) later from after_append _ _ _ _]
      have hsound := s.sound_buildAfter work segments moves
      exact windsDown_after (s.lineup segments) hsound hhalted later
    exact hdown.trace

/-- A build of a pair under `failNever` that is asked for a phase of no lifecycle. -/
def lostPair (moves : List Move) : BuildRun :=
  (ofPair .failNever).buildAfter (fun _ id state _ => .failed (Fault.unplannedUnit id) state)
    [⟨[.phase "compile"], false⟩] moves

/-- In that build no unit is started once the first one has failed. -/
theorem lost_pair_starts_nothing :
    (lostPair (.replicate 3 .coordinate)).status.halted = true ∧
      ∀ later, ∃ new, (lostPair (.replicate 3 .coordinate ++ later)).trace =
        (lostPair (.replicate 3 .coordinate)).trace ++ new ∧ ∀ entry ∈ new, ¬ entry.IsStart := by
  let error : BuildError :=
    { fault := .unknownPhase "compile" []
      context := { unit := some "core", phase := some "compile" } }
  have hresults : (lostPair (.replicate 3 .coordinate)).summary.results =
      [.failure "core" 0 error 0 0 none] := by
    decide +kernel
  have hresult : UnitResult.failure "core" 0 error 0 0 none ∈
      (lostPair (.replicate 3 .coordinate)).summary.results := by
    rw [hresults]
    exact List.mem_singleton_self _
  have hruled := fun later => (ofPair .failNever).unplannable_unit_halts_by_kind _
    [⟨[.phase "compile"], false⟩] (.replicate 3 .coordinate) later List.mem_cons_self hresult
    List.mem_cons_self rfl rfl (by decide)
  obtain ⟨-, -, -, hstops, hhalted, -⟩ := hruled []
  have hdown : (lostPair (.replicate 3 .coordinate)).status.halted = true :=
    hhalted.2 ⟨_, hresult, hstops.2 (.inl (.unknownPhase "compile" []))⟩
  exact ⟨hdown, fun later => (hruled later).2.2.2.2.2 hdown⟩

end Session

namespace Publishing

open BuildRun

/-- A unit that binds a goal which the plugin of the site does not have. -/
def checkedUnit : BuildUnit where
  id := "core"
  plugins := [{
    coordinate := plugin
    executions := [{ id := "check", phase := some "render", goals := ["check"] }] }]

/-- A session of that unit and another one, under `failNever`. -/
def session : Session where
  workspace := {
    units := {
      units := [checkedUnit, { id := "app" }]
      sorted := [checkedUnit, { id := "app" }]
      nodup_ids := by decide
      arranged := ⟨rfl, rfl, trivial⟩ }
    root := "core"
    contains_root := rfl }
  planner := planner
  settings := { policy := .failNever }

/-- The error in the place of the unit's plan. -/
def missing : BuildError where
  fault := .unknownGoal "check" plugin ["copy", "tidy", "sign"]
  context := { unit := some "core" }

/-- The stage of a request for the end of the lifecycle. -/
def stage : Stage where
  members := [checkedUnit, { id := "app" }]
  plans := [("core", .error missing), ("app", .ok ⟨"app", []⟩)]

/-- The request comes to one stage, in which the unit has no plan. -/
theorem stages_eq : session.stages {} 0 [⟨[.phase "publish"], false⟩] = [stage] := by
  cbv

/-- A build of the session after moves. -/
def build (moves : List Move) : BuildRun :=
  session.buildAfter (fun _ id state _ => .failed (Fault.unplannedUnit id) state)
    [⟨[.phase "publish"], false⟩] moves

/-- In the build of the session the first unit fails for want of a plan, and then the other one is
started. -/
theorem unit_is_started_after_unplannable_one :
    stage ∈ session.stages {} 0 [⟨[.phase "publish"], false⟩] ∧
    stage.plans.get "core" = .error missing ∧
    (build (.replicate 3 .coordinate)).summary.results = [.failure "core" 0 missing 0 0 none] ∧
    ∃ entry, (build (.replicate 4 .coordinate)).trace =
      (build (.replicate 3 .coordinate)).trace ++ [entry] ∧ entry.IsStart := by
  refine ⟨?_, rfl, ?_, ⟨0, "app", .reported (.ofUnit "app" 0 .started)⟩, ?_, _, _, rfl⟩
  · rw [stages_eq]
    exact List.mem_singleton_self stage
  · unfold build Session.buildAfter Session.start
    rw [stages_eq]
    decide +kernel
  · unfold build Session.buildAfter Session.start
    rw [stages_eq]
    rfl

end Publishing

end PhasedBuild
