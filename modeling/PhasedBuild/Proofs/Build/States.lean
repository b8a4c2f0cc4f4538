import PhasedBuild.Proofs.Build.Confluence
import PhasedBuild.Proofs.Build.Halting
import PhasedBuild.Proofs.Build.Ordering
import PhasedBuild.Proofs.Build.Ownership
import PhasedBuild.Proofs.Run.Copies
import PhasedBuild.Proofs.Run.Noninterference

/-!
# The states of units in the course of a build

A unit has one state. A lane that is started on the unit takes it along, and what the lane has made
of it is kept when its result is recorded.

* `BuildRun.stateOf` is the state of a unit at a moment of a build.
* `BuildRun.Sound.passes_step`: the state of a unit changes only when the result of its own lane is
  recorded.
* `Executor.forked_work_is_confined`: forked work has no part in the states of units, unless what a
  lane is told depends on its requests before.
* `BuildRun.Tidy`: a state with a copy in it belongs to a unit that has failed.
* `Executor.copies_are_left_by_failed_forks_only`: what a step sees of copies, and when one is left
  behind.
-/

namespace PhasedBuild

namespace BuildRun

variable {rules : BuildRules} {stages : List Stage} {b b' : BuildRun}

/-- The state of a unit: the one that its lane was started with, as long as the result of the lane
has not been recorded, and else the one that is kept. -/
def stateOf (b : BuildRun) (id : String) : UnitState :=
  match b.active.find? (·.unit == id) with
  | some lane => lane.before
  | none => b.keptState id

/-! ### The state of a unit -/

/-- While a lane is active on a unit, the state of the unit is the one with which the lane was
started. -/
theorem stateOf_of_mem_active (hnodup : (b.active.map (·.unit)).Nodup) {lane : Lane}
    (hlane : lane ∈ b.active) : b.stateOf lane.unit = lane.before := by
  unfold stateOf
  split
  next other hother =>
    have hunit : other.unit = lane.unit := by simpa using List.find?_some hother
    rw [List.inj_on_of_nodup_map hnodup (List.mem_of_find?_eq_some hother) hlane hunit]
  next hnone =>
    have hne := List.find?_eq_none.1 hnone lane hlane
    simp at hne

/-- The state of a unit on which no lane is active is the one that is kept. -/
theorem stateOf_of_not_active {id : String} (h : id ∉ b.active.map (·.unit)) :
    b.stateOf id = b.keptState id := by
  unfold stateOf
  split
  next lane hlane =>
    have hunit : lane.unit = id := by simpa using List.find?_some hlane
    exact absurd (List.mem_map.2 ⟨lane, List.mem_of_find?_eq_some hlane, hunit⟩) h
  next => rfl

/-- The state of a unit is the same at two moments if the same is kept and the same lanes are
active, however far they have come. -/
theorem stateOf_congr (hnodup : (b.active.map (·.unit)).Nodup) (hstates : b'.states = b.states)
    (hperm : (b'.active.map fun lane => (lane.unit, lane.before)).Perm
      (b.active.map fun lane => (lane.unit, lane.before))) (id : String) :
    b'.stateOf id = b.stateOf id := by
  have hunits : (b'.active.map (·.unit)).Perm (b.active.map (·.unit)) := by
    have hmap := hperm.map (·.1)
    rwa [List.map_map, List.map_map] at hmap
  by_cases hid : id ∈ b.active.map (·.unit)
  · obtain ⟨lane, hlane, rfl⟩ := List.mem_map.1 hid
    obtain ⟨lane', hlane', heq⟩ := List.mem_map.1 (hperm.mem_iff.2
      (List.mem_map_of_mem (f := fun lane => (lane.unit, lane.before)) hlane))
    obtain ⟨hunit, hbefore⟩ := Prod.mk.inj heq
    rw [stateOf_of_mem_active hnodup hlane, ← hunit, ← hbefore,
      stateOf_of_mem_active (hunits.nodup_iff.2 hnodup) hlane']
  · rw [stateOf_of_not_active hid, stateOf_of_not_active (mt hunits.mem_iff.1 hid), keptState,
      hstates, keptState]

/-- What a step means for the state of a unit: nothing, or the result of its lane is recorded. -/
def Passes (b b' : BuildRun) (id : String) : Prop :=
  b'.stateOf id = b.stateOf id ∨
    ∃ lane ∈ b.active, lane.unit = id ∧ b.stateOf id = lane.before ∧
      id ∉ b'.active.map (·.unit) ∧ b'.stateOf id = lane.work.state

/-- Starting a unit changes no state, for its lane takes it along. -/
theorem Sound.stateOf_start (h : b.Sound rules stages) {id : String} {rest : List String}
    (plan : ExecutionPlan) (hposition : b.position = .walking (id :: rest)) (other : String) :
    ({ b.start rules id plan with position := .walking rest } : BuildRun).stateOf other =
      b.stateOf other := by
  let after : BuildRun := { b.start rules id plan with position := .walking rest }
  have hperm : after.active.Perm (b.laneFor rules id plan :: b.active) :=
    active_start_perm rules b id plan
  have hready := h.mem_ready hposition
  have hidle : id ∉ b.active.map (·.unit) := by
    intro hactive
    have hpending := (h.consistent.mem_ready_iff.1 hready).1
    rw [(h.consistent.running_iff id).2 hactive] at hpending
    cases hpending
  have hunits : (after.active.map (·.unit)).Perm (id :: b.active.map (·.unit)) := hperm.map _
  have hnodup : (after.active.map (·.unit)).Nodup :=
    hunits.nodup_iff.2 (List.nodup_cons.2 ⟨hidle, h.consistent.nodup_active⟩)
  show after.stateOf other = b.stateOf other
  by_cases heq : other = id
  · subst heq
    have hlane : b.laneFor rules other plan ∈ after.active :=
      hperm.mem_iff.2 List.mem_cons_self
    rw [stateOf_of_not_active hidle]
    exact stateOf_of_mem_active hnodup hlane
  · by_cases hactive : other ∈ b.active.map (·.unit)
    · obtain ⟨lane, hlane, rfl⟩ := List.mem_map.1 hactive
      rw [stateOf_of_mem_active h.consistent.nodup_active hlane,
        stateOf_of_mem_active hnodup (hperm.mem_iff.2 (List.mem_cons_of_mem _ hlane))]
    · have hnot : other ∉ after.active.map (·.unit) := by
        rw [hunits.mem_iff, List.mem_cons]
        exact not_or.2 ⟨heq, hactive⟩
      rw [stateOf_of_not_active hactive, stateOf_of_not_active hnot]
      show (Keyed.find? other (Keyed.erase id b.states)).getD {} = _
      rw [Keyed.find?_erase_of_ne heq]
      rfl

/-- Recording the result of a lane passes on the state that it has left, and no other. -/
theorem Sound.passes_record (h : b.Sound rules stages) {lane : Lane} {released : Bool}
    {delivered : List (Lane × Bool)} (hdelivered : b.delivered = (lane, released) :: delivered)
    (other : String) : b.Passes ({ b with delivered }.record rules lane) other := by
  let after : BuildRun := { b with delivered }.record rules lane
  have hperm : b.active.Perm (lane :: after.active) := active_perm_of_delivered hdelivered
  have hunits : (b.active.map (·.unit)).Perm (lane.unit :: after.active.map (·.unit)) :=
    hperm.map _
  obtain ⟨hgone, hnodup⟩ := List.nodup_cons.1 (hunits.nodup_iff.1 h.consistent.nodup_active)
  by_cases heq : other = lane.unit
  · subst heq
    have hlane : lane ∈ b.active := hperm.mem_iff.2 List.mem_cons_self
    refine .inr ⟨lane, hlane, rfl, stateOf_of_mem_active h.consistent.nodup_active hlane, hgone, ?_⟩
    rw [stateOf_of_not_active hgone]
    show (Keyed.find? lane.unit (Keyed.insert lane.unit lane.work.state b.states)).getD {} = _
    rw [Keyed.find?_insert_self]
    rfl
  · refine .inl ?_
    by_cases hactive : other ∈ b.active.map (·.unit)
    · obtain ⟨lane', hlane', rfl⟩ := List.mem_map.1 hactive
      have hstays : lane' ∈ after.active := by
        rcases List.mem_cons.1 (hperm.mem_iff.1 hlane') with rfl | hstays
        · exact absurd rfl heq
        · exact hstays
      rw [stateOf_of_mem_active h.consistent.nodup_active hlane',
        stateOf_of_mem_active hnodup hstays]
    · have hnot : other ∉ after.active.map (·.unit) := fun hmem =>
        hactive (hunits.mem_iff.2 (List.mem_cons_of_mem _ hmem))
      rw [stateOf_of_not_active hactive, stateOf_of_not_active hnot]
      show (Keyed.find? other (Keyed.insert lane.unit lane.work.state b.states)).getD {} = _
      rw [Keyed.find?_insert_of_ne heq]
      rfl

/-- The state of a unit changes only when the result of its own lane is recorded. -/
theorem Sound.passes_step (h : b.Sound rules stages) (hstep : Step rules b b') (id : String) :
    b.Passes b' id := by
  have hnodup := h.consistent.nodup_active
  cases hstep with
  | idle => exact .inl rfl
  | advance hstep =>
    cases hstep with
    | onward _ => exact .inl rfl
    | refuse _ _ => exact .inl rfl
    | start hposition _ _ _ => exact .inl (h.stateOf_start _ hposition id)
    | record _ hdelivered => exact h.passes_record hdelivered id
    | enter _ _ => exact .inl rfl
  | act hworking _ =>
    refine .inl (stateOf_congr hnodup ?_ (.of_eq ?_) id)
    · rfl
    · simp [active, note, hworking]
  | deliver hworking _ _ =>
    refine .inl (stateOf_congr hnodup ?_ ((active_perm_of_working hworking).map _).symm id)
    rfl
  | release hdelivered =>
    refine .inl (stateOf_congr hnodup ?_ (.of_eq ?_) id)
    · rfl
    · simp [active, hdelivered]

/-! ### The work of a lane -/

/-- A lane that is active after a step was so before, or it has been started on a unit for which
there was no reason to be skipped. -/
theorem Step.lane_cases (hstep : Step rules b b') {lane : Lane} (hlane : lane ∈ b'.active) :
    (∃ same ∈ b.active, lane = { same with done := lane.done }) ∨
      ∃ id plan, b.status.skipReason? id = none ∧ lane = b.laneFor rules id plan := by
  have hsame : ∀ {other : Lane}, other ∈ b.active →
      ∃ same ∈ b.active, other = { same with done := other.done } :=
    fun hother => ⟨_, hother, rfl⟩
  cases hstep with
  | idle => exact .inl (hsame hlane)
  | advance hstep =>
    cases hstep with
    | onward _ => exact .inl (hsame hlane)
    | refuse _ _ => exact .inl (hsame hlane)
    | start _ hskip _ _ =>
      rcases List.mem_cons.1 ((active_start_perm rules b _ _).mem_iff.1 hlane) with rfl | hlane
      · exact .inr ⟨_, _, hskip, rfl⟩
      · exact .inl (hsame hlane)
    | record _ hdelivered =>
      have hperm := active_perm_of_delivered hdelivered
      exact .inl (hsame (hperm.mem_iff.2 (List.mem_cons_of_mem _ hlane)))
    | enter _ _ => exact .inl (hsame hlane)
  | act hworking _ => exact .inl (exists_same_of_act hworking hlane)
  | deliver hworking _ _ =>
    exact .inl (hsame ((active_perm_of_working hworking).mem_iff.2 hlane))
  | release hdelivered =>
    refine .inl (hsame ?_)
    simpa [active, hdelivered] using hlane

/-- The work of every active lane is that which the rules have for it. -/
def WorksByRules (rules : BuildRules) (b : BuildRun) : Prop :=
  ∀ lane ∈ b.active, ∃ plan, lane.work = rules.work lane.number lane.unit lane.before plan

/-- Lanes that start do the work which the rules have for them, and go on with it. -/
theorem WorksByRules.step (h : b.WorksByRules rules) (hstep : Step rules b b') :
    b'.WorksByRules rules := by
  intro lane hlane
  rcases hstep.lane_cases hlane with ⟨same, hsame, heq⟩ | ⟨id, plan, -, rfl⟩
  · obtain ⟨plan, hwork⟩ := h same hsame
    refine ⟨plan, ?_⟩
    rw [heq]
    exact hwork
  · exact ⟨plan, rfl⟩

/-! ### Copies that are left behind -/

/-- A result tells that a unit has failed. -/
def HasFailed (b : BuildRun) (id : String) : Prop :=
  ∃ result ∈ b.summary.results, result.unit = id ∧ result.outcome = .failed

/-- States with copies in them belong to units that have failed, and if failures have an effect,
these units are not started any more. -/
structure Tidy (rules : BuildRules) (b : BuildRun) : Prop where
  kept : ∀ id, (b.keptState id).forked.isSome = true →
    b.HasFailed id ∧ (rules.policy ≠ .failNever → b.status.skipReason? id ≠ none)
  lanes : ∀ lane ∈ b.active, lane.before.forked.isSome = true →
    rules.policy = .failNever ∧ b.HasFailed lane.unit

end BuildRun

namespace BuildStatus

variable {units : UnitGraph} {policy : FailurePolicy} {status : BuildStatus} {id other : String}
  {ending : Ending}

/-- A unit is skipped if the build has been stopped or the unit is blacklisted. -/
theorem skipReason?_ne_none_iff :
    status.skipReason? id ≠ none ↔ status.halted = true ∨ id ∈ status.blacklisted := by
  unfold skipReason? isBlacklisted
  split
  · simp [*]
  · split <;> simp_all

/-- A unit that must not be started must not be started later. -/
theorem skipReason?_after (h : status.skipReason? id ≠ none) :
    (status.after units policy other ending).skipReason? id ≠ none := by
  rw [skipReason?_ne_none_iff] at h ⊢
  rcases h with hhalted | hblack
  · exact .inl (halted_after_of_halted hhalted)
  · right
    cases ending with
    | succeeded _ _ => exact hblack
    | skipped _ => exact hblack
    | failed error _ _ =>
      have hkept : id ∈ (if error.isConfiguration then status.halt else status).blacklisted := by
        split <;> exact hblack
      cases policy with
      | failFast => exact (mem_blacklist_iff _ _ _ _).2 (.inl hkept)
      | failAtEnd => exact (mem_blacklist_iff _ _ _ _).2 (.inl hkept)
      | failNever => exact hkept

/-- If failures have an effect, a unit that has failed must not be started. -/
theorem skipReason?_after_failed (hpolicy : policy ≠ .failNever)
    (hending : ending.outcome = .failed) :
    (status.after units policy id ending).skipReason? id ≠ none := by
  rw [skipReason?_ne_none_iff]
  cases ending with
  | succeeded _ _ => cases hending
  | skipped _ => cases hending
  | failed error _ _ =>
    right
    cases policy with
    | failFast => exact (mem_blacklist_iff _ _ _ _).2 (.inr (.inl rfl))
    | failAtEnd => exact (mem_blacklist_iff _ _ _ _).2 (.inr (.inl rfl))
    | failNever => exact absurd rfl hpolicy

end BuildStatus

namespace BuildRun

variable {rules : BuildRules} {stages : List Stage} {b b' : BuildRun}

/-- A failure stays on record when another unit comes to its end. -/
theorem HasFailed.close {id : String} (h : b.HasFailed id) (rules : BuildRules) (other : String)
    (ending : Ending) :
    (b.close rules other ending).HasFailed id := by
  obtain ⟨result, hresult, hfailed⟩ := h
  exact ⟨result, List.mem_append_left _ hresult, hfailed⟩

/-- A unit that ends with a failure has failed. -/
theorem hasFailed_close (rules : BuildRules) {id : String} {ending : Ending}
    (h : ending.outcome = .failed) :
    (b.close rules id ending).HasFailed id :=
  ⟨ending.result id b.stage.position, List.mem_append_right _ (List.mem_singleton_self _),
    ending.unit_result id _, (ending.outcome_result id _).trans h⟩

/-- A unit that has failed has failed. -/
theorem Step.hasFailed (hstep : Step rules b b') {id : String} (h : b.HasFailed id) :
    b'.HasFailed id := by
  cases hstep with
  | idle => exact h
  | advance hstep =>
    cases hstep with
    | onward _ => exact h
    | refuse _ _ => exact h.close rules _ _
    | start _ _ _ _ => exact h
    | record _ _ => exact h.close rules _ _
    | enter _ _ => exact h
  | act _ _ => exact h
  | deliver _ _ _ => exact h
  | release _ => exact h

/-- A unit that is to be skipped stays so. -/
theorem Step.skipReason?_ne_none (hstep : Step rules b b') {id : String}
    (h : b.status.skipReason? id ≠ none) : b'.status.skipReason? id ≠ none := by
  cases hstep with
  | idle => exact h
  | advance hstep =>
    cases hstep with
    | onward _ => exact h
    | refuse _ _ => exact BuildStatus.skipReason?_after h
    | start _ _ _ _ => exact h
    | record _ _ => exact BuildStatus.skipReason?_after h
    | enter _ _ => exact h
  | act _ _ => exact h
  | deliver _ _ _ => exact h
  | release _ => exact h

/-- What is kept of a unit is taken along when a lane starts, and it is put back when the result of
the lane is recorded. -/
theorem Step.keptState_cases (hstep : Step rules b b') (id : String) :
    b'.keptState id = b.keptState id ∨ b'.keptState id = {} ∨
      ∃ lane ∈ b.active, lane.unit = id ∧ b'.keptState id = lane.work.state ∧
        (lane.ending.outcome = .failed → b'.HasFailed id ∧
          (rules.policy ≠ .failNever → b'.status.skipReason? id ≠ none)) := by
  cases hstep with
  | idle => exact .inl rfl
  | advance hstep =>
    cases hstep with
    | onward _ => exact .inl rfl
    | refuse _ _ => exact .inl rfl
    | @start started rest plan _ _ _ _ =>
      have heq : ({ b.start rules started plan with
          position := .walking rest } : BuildRun).keptState id =
            (Keyed.find? id (Keyed.erase started b.states)).getD {} := rfl
      by_cases hid : id = started
      · rw [heq, hid, Keyed.find?_erase_self]
        exact .inr (.inl rfl)
      · rw [heq, Keyed.find?_erase_of_ne hid]
        exact .inl rfl
    | @record lane released delivered _ hdelivered =>
      have heq : ({ b with delivered }.record rules lane).keptState id =
          (Keyed.find? id (Keyed.insert lane.unit lane.work.state b.states)).getD {} := rfl
      by_cases hid : id = lane.unit
      · subst hid
        refine .inr (.inr ⟨lane, mem_active_of_delivered hdelivered, rfl, ?_, fun hfailed => ?_⟩)
        · rw [heq, Keyed.find?_insert_self]
          rfl
        · exact ⟨hasFailed_close rules hfailed, fun hpolicy =>
            BuildStatus.skipReason?_after_failed hpolicy hfailed⟩
      · rw [heq, Keyed.find?_insert_of_ne hid]
        exact .inl rfl
    | enter _ _ => exact .inl rfl
  | act _ _ => exact .inl rfl
  | deliver _ _ _ => exact .inl rfl
  | release _ => exact .inl rfl

/-- If work on a state without a copy leaves none unless it fails, every step keeps a build tidy. -/
theorem Tidy.step (hwork : ∀ number id before plan, before.forked.isSome = false →
      (rules.work number id before plan).result = .ok () →
        (rules.work number id before plan).state.forked.isSome = false)
    (h : b.Tidy rules) (hrules : b.WorksByRules rules) (hstep : Step rules b b') :
    b'.Tidy rules where
  kept := by
    intro id hcopy
    have hstays : b.HasFailed id ∧ (rules.policy ≠ .failNever → b.status.skipReason? id ≠ none) →
        b'.HasFailed id ∧ (rules.policy ≠ .failNever → b'.status.skipReason? id ≠ none) :=
      fun ⟨hfailed, hskip⟩ => ⟨hstep.hasFailed hfailed, fun hpolicy =>
        hstep.skipReason?_ne_none (hskip hpolicy)⟩
    rcases hstep.keptState_cases id with heq | heq | ⟨lane, hlane, rfl, heq, hfailed⟩
    · exact hstays (h.kept id (heq ▸ hcopy))
    · rw [heq] at hcopy
      cases hcopy
    · rw [heq] at hcopy
      by_cases hbefore : lane.before.forked.isSome = true
      · obtain ⟨hpolicy, hfailed⟩ := h.lanes lane hlane hbefore
        exact hstays ⟨hfailed, fun hne => absurd hpolicy hne⟩
      · -- The work has started without a copy, so it has failed.
        refine hfailed ?_
        obtain ⟨plan, hplan⟩ := hrules lane hlane
        have hok : lane.work.result ≠ .ok () := by
          intro hok
          rw [hplan] at hok hcopy
          rw [hwork _ _ _ _ (by simpa using hbefore) hok] at hcopy
          cases hcopy
        unfold Lane.ending
        split
        next heq => exact absurd heq hok
        next => rfl
  lanes := by
    intro lane hlane hcopy
    rcases hstep.lane_cases hlane with ⟨same, hsame, heq⟩ | ⟨id, plan, hskip, rfl⟩
    · rw [heq] at hcopy ⊢
      obtain ⟨hpolicy, hfailed⟩ := h.lanes same hsame hcopy
      exact ⟨hpolicy, hstep.hasFailed hfailed⟩
    · obtain ⟨hfailed, hgiven⟩ := h.kept id hcopy
      refine ⟨?_, hstep.hasFailed hfailed⟩
      by_contra hpolicy
      exact hgiven hpolicy hskip

end BuildRun

/-! ### Builds whose lanes run plans -/

namespace Executor

open BuildRun

variable (x : Executor) (s : Session) (segments : List Segment)

/-- At every moment of a build the lanes do the work which the rules have for them. -/
theorem worksByRules_buildAfter (moves : List Move) :
    (s.buildAfter x.work segments moves).WorksByRules (s.rules x.work) :=
  after_induction (fun hb hstep => WorksByRules.step hb hstep)
    (fun _ hlane => absurd hlane List.not_mem_nil) moves

/-- A lane that runs a plan on a state without a copy leaves none unless it fails. -/
theorem forked_work (number : Nat) (id : String) (before : UnitState) (plan : ExecutionPlan)
    (hbefore : before.forked.isSome = false)
    (hok : (x.work number id before plan).result = .ok ()) :
    (x.work number id before plan).state.forked.isSome = false := by
  unfold work at hok ⊢
  split at hok
  next unit hunit =>
    have hnone : before.forked = none :=
      Option.isNone_iff_eq_none.1 (Option.isSome_eq_false_iff.1 hbefore)
    simp only
    exact ((x.execute_sights number unit hnone plan.executions).2.1 hok).2
  next => cases hok

/-- The steps of a lane that runs a plan see what is listed for them. -/
theorem sights_work (number : Nat) (id : String) {before : UnitState} (plan : ExecutionPlan)
    (hbefore : before.forked.isSome = false) :
    Action.sights (x.work number id before plan).actions <+: x.sightsList id 0 plan.executions := by
  have hnone : before.forked = none :=
    Option.isNone_iff_eq_none.1 (Option.isSome_eq_false_iff.1 hbefore)
  unfold work
  split
  next unit hunit =>
    obtain ⟨-, rfl⟩ := UnitGraph.get?_eq_some_iff.1 hunit
    exact (x.execute_sights number unit hnone plan.executions).1
  next => exact List.nil_prefix

/-- A build that starts has no copies. -/
theorem tidy_start : (s.start segments).Tidy (s.rules x.work) where
  kept := by
    intro id hcopy
    unfold keptState at hcopy
    cases hfind : Keyed.find? id (s.start segments).states with
    | none =>
      rw [hfind] at hcopy
      cases hcopy
    | some state =>
      obtain ⟨unit, -, heq⟩ :=
        List.mem_map.1 (Keyed.mem_of_mem_ofList (Keyed.mem_of_find? hfind))
      obtain ⟨-, rfl⟩ := Prod.mk.inj heq
      rw [hfind] at hcopy
      cases hcopy
  lanes := fun _ hlane => absurd hlane List.not_mem_nil

/-- At every moment of a build, a state with a copy in it belongs to a unit that has failed. -/
theorem tidy_buildAfter (moves : List Move) :
    (s.buildAfter x.work segments moves).Tidy (s.rules x.work) := by
  let rules := s.rules x.work
  have hstart : (s.start segments).WorksByRules rules ∧ (s.start segments).Tidy rules :=
    ⟨fun _ hlane => absurd hlane List.not_mem_nil, x.tidy_start s segments⟩
  have hstep : ∀ {b b' : BuildRun}, b.WorksByRules rules ∧ b.Tidy rules →
      BuildRun.Step rules b b' → b'.WorksByRules rules ∧ b'.Tidy rules :=
    fun ⟨hrules, htidy⟩ hstep => ⟨hrules.step hstep, htidy.step x.forked_work hrules hstep⟩
  have hall := after_induction (P := fun b => b.WorksByRules rules ∧ b.Tidy rules) hstep hstart
    moves
  exact hall.2

/-- Steps of two units. Those of one unit fail. -/
def ofDuo (failing : String) : Executor where
  units := .duo
  runner := fun _ call =>
    if call.unit.id = failing then (.error ["no luck"], call.state) else (.ok (), call.state)
  resolver := Resolver.none

/-- A step of a plugin for two units, with the work that it forks. -/
def stepOfDuo (goal : String) (forks : Forks Execution) : Execution where
  step :=
    { descriptor := { plugin := { group := "org.acme", artifact := "acme-plugin" }, goal }
      executionId := goal, source := .lifecycle, configuration := { name := "configuration" } }
  forks := forks

/-- A step that forks a check on both of two units. -/
def surveyOfDuo : Execution :=
  let check := stepOfDuo "check" .notForking
  stepOfDuo "survey" (.expanded [⟨"root", [check]⟩, ⟨"app", [check]⟩])

/-- Steps of two units that always succeed. A lane is granted one request only. -/
def ofQuota : Executor where
  units := .duo
  runner := fun _ call => (.ok (), call.state)
  resolver :=
    let answer : Resolver := fun history _ _ =>
      if history = [] then .ok [] else .error ["the quota is used up"]
    answer

/-- The execution with a step that needs what there is to compile. -/
def needing (e : Execution) : Execution :=
  { e with step.descriptor.requiresResolution := some .compile }

/-- A step that needs artifacts and forks a check on its own unit, which needs them as well. -/
def needingSurvey : Execution :=
  needing (stepOfDuo "survey" (.expanded [⟨"root", [needing (stepOfDuo "check" .notForking)]⟩]))

/-- From a state without a copy, the steps that executions run see a copy if and only if they fork
work on their own unit, whether the executions come to their end or not. A copy is left behind if
and only if it is stranded: forked work on the unit itself has come to its end, and later work of
the same step has failed. In a build, the lanes start from states without a copy and their steps see
what is listed for them, unless the policy is `failNever` and the unit has failed before. -/
theorem copies_are_left_by_failed_forks_only :
    (∀ (lane : Nat) (unit : BuildUnit) (state : UnitState) (executions : List Execution),
      state.forked = none →
      let result := (x.execute lane unit state executions).1
      let after := (x.execute lane unit state executions).2.1
      let sights := Action.sights (x.execute lane unit state executions).2.2
      sights <+: x.sightsList unit.id 0 executions ∧
        (result = .ok () → sights = x.sightsList unit.id 0 executions ∧
          after.forked.isSome = false) ∧
        (after.forked.isSome = true ↔
          x.Strands lane unit 0 (enter unit state executions) executions)) ∧
    ∀ (s : Session) (segments : List Segment) (moves : List Move),
      let b := s.buildAfter x.work segments moves
      ∀ lane ∈ b.active,
        (∃ plan, lane.work = x.work lane.number lane.unit lane.before plan ∧
          (s.settings.policy ≠ .failNever →
            Action.sights lane.work.actions <+: x.sightsList lane.unit 0 plan.executions)) ∧
        (lane.before.forked.isSome = true →
          s.settings.policy = .failNever ∧ b.HasFailed lane.unit) := by
  refine ⟨?_, ?_⟩
  · intro lane unit state executions hnone
    exact x.execute_sights lane unit hnone executions
  · intro s segments moves b lane hlane
    have hcopy := (x.tidy_buildAfter s segments moves).lanes lane hlane
    obtain ⟨plan, hplan⟩ := x.worksByRules_buildAfter s segments moves lane hlane
    refine ⟨⟨plan, hplan, fun hpolicy => ?_⟩, hcopy⟩
    have hbefore : lane.before.forked.isSome = false :=
      Bool.eq_false_iff.2 fun hsome => hpolicy (hcopy hsome).1
    rw [hplan]
    exact x.sights_work lane.number lane.unit plan hbefore

/-- A copy stays behind if a check of the first unit succeeds, a check of the second one fails, and
both are forked by the same step. A later step of the first unit sees it then, although it forks
nothing. -/
theorem copy_outlives_failed_fork :
    let after := ((ofDuo "app").execute 1 { id := "root" } {} [surveyOfDuo]).2.1
    let later := (ofDuo "app").execute 2 { id := "root" } after [stepOfDuo "check" .notForking]
    after.forked.isSome = true ∧ (Action.sights later.2.2).map (·.2) = [true] := by
  decide +kernel

end Executor

end PhasedBuild
