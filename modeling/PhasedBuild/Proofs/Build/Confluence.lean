import PhasedBuild.Proofs.Build.Accounting
import PhasedBuild.Proofs.Build.Plans
import PhasedBuild.Proofs.Build.Reference

/-!
# Results do not depend on the order of things

If the work on a unit has a part in nothing but the unit, its state and its plan, and if no failure
is one of configuration and the policy is not `failFast`, then a build comes to the results of
`Ledger.results`, however many places there are and in whatever order the lanes go on.

* `BuildRun.Follows`: a moment of a build is in keeping with a ledger of the segments before.
* `Follows.mem_blacklisted_iff`: when the turn of a unit has come, it is given up if and only if a
  failure stands against it, for all failures that can stand against it have been recorded by then.
* `Follows.after`: a build stays in keeping with a ledger and always expects the same results.
-/

namespace PhasedBuild

/-- What decides what becomes of the units, if the work has the given effect. -/
def BuildRules.terms (rules : BuildRules) (effect : Effect) : BuildTerms where
  units := rules.units
  policy := rules.policy
  effect := effect

/-- Rules under which a build of stages is not stopped and its work has an effect of its own. -/
structure BuildRules.Orderly (rules : BuildRules) (effect : Effect) (stages : List Stage) :
    Prop where
  policy_ne : rules.policy ≠ .failFast
  work_eq : ∀ id ∈ rules.units.ids, ∀ number before plan,
    ((rules.work number id before plan).result, (rules.work number id before plan).state) =
      effect id before plan
  /-- No work fails for a reason of configuration. -/
  worked : ∀ id ∈ rules.units.ids, ∀ before plan error,
    (effect id before plan).1 = .error error → error.isConfiguration = false
  /-- No unit wants a plan for a reason of configuration. -/
  planned : ∀ stage ∈ stages, ∀ id ∈ stage.ids, ∀ error,
    stage.plans.get id = .error error → error.isConfiguration = false

/-! ### What a failure does to the status -/

namespace BuildStatus

variable (units : UnitGraph) {policy : FailurePolicy} (status : BuildStatus) (id other : String)
  {ending : Ending}

/-- When a unit is blacklisted, exactly that unit and those that depend on it join the ones that
are. -/
theorem mem_blacklist_iff : other ∈ (status.blacklist units id).blacklisted ↔
    other ∈ status.blacklisted ∨ id = other ∨ units.DependsOn other id := by
  have hfold : ∀ ids given : List String,
      other ∈ ids.foldl (fun given id => insertId id given) given ↔
        other ∈ given ∨ other ∈ ids := by
    intro ids
    induction ids with
    | nil => simp
    | cons first rest ih =>
      intro given
      rw [List.foldl_cons, ih, mem_insertId, List.mem_cons, or_comm (a := other = first), or_assoc]
  rw [blacklist, hfold, List.mem_cons, UnitGraph.mem_downstream_iff, eq_comm]

/-- A failure that is none of configuration gives up the unit and those that depend on it, if the
policy gives units up, and does nothing else. -/
theorem after_iff (hpolicy : policy ≠ .failFast)
    (hplain : ∀ error steps lastPhase, ending = .failed error steps lastPhase →
      error.isConfiguration = false) :
    (status.after units policy id ending).halted = status.halted ∧
      (other ∈ (status.after units policy id ending).blacklisted ↔ other ∈ status.blacklisted ∨
        policy = .failAtEnd ∧ ending.outcome = .failed ∧
          (id = other ∨ units.DependsOn other id)) := by
  cases ending with
  | succeeded _ _ => simp [BuildStatus.after, Ending.outcome]
  | skipped _ => simp [BuildStatus.after, Ending.outcome]
  | failed error steps lastPhase =>
    have hkind := hplain error steps lastPhase rfl
    cases policy with
    | failFast => exact absurd rfl hpolicy
    | failAtEnd =>
      refine ⟨by simp [BuildStatus.after, hkind, blacklist], ?_⟩
      simp [BuildStatus.after, hkind, mem_blacklist_iff, Ending.outcome]
    | failNever => simp [BuildStatus.after, hkind]

end BuildStatus

namespace BuildRun

variable {rules : BuildRules} {stages : List Stage} {b b' : BuildRun} {t : BuildTerms} {l : Ledger}

/-- A moment of a build in keeping with the ledger of the segments before. -/
structure Follows (t : BuildTerms) (l : Ledger) (b : BuildRun) : Prop where
  halted : b.status.halted = false
  /-- Given up is what a failure stands against that has been recorded. -/
  blacklisted : ∀ id, id ∈ b.status.blacklisted ↔ t.policy = .failAtEnd ∧
    ((∃ failed ∈ l.failed, failed = id ∨ t.units.DependsOn id failed) ∨
      ∃ failed ∈ l.failures t b.stage, b.schedule.isFinished failed = true ∧
        (failed = id ∨ t.units.DependsOn id failed))
  plans : ∀ id ∈ b.schedule.pendingIds, b.plans.get id = b.stage.plans.get id
  lanes : ∀ lane ∈ b.active, l.settle t b.stage lane.unit = (lane.ending, lane.work.state)
  finished_state : ∀ id ∈ b.stage.ids, b.schedule.isFinished id = true →
    (Keyed.find? id b.states).getD {} = (l.settle t b.stage id).2
  idle_state : ∀ id, id ∉ b.active.map (·.unit) →
    ¬ (id ∈ b.stage.ids ∧ b.schedule.isFinished id = true) →
      (Keyed.find? id b.states).getD {} = l.state id

/-- The results that a build comes to: those that it has, those that the active lanes come to, and
those of the ledger for all other units. -/
def expected (t : BuildTerms) (l : Ledger) (b : BuildRun) : List UnitResult :=
  b.resultsWith
    (b.schedule.pendingIds.map (l.result t b.stage) ++ (l.next t b.stage).results t b.rest)

/-! ### The decision about a unit -/

/-- When the turn of a unit has come, all failures that can stand against it have been recorded. -/
theorem Follows.mem_blacklisted_iff (hfits : b.stage.Fits rules.units) (hb : b.Sound rules stages)
    {effect : Effect} (h : b.Follows (rules.terms effect) l) {id : String}
    (hready : id ∈ b.schedule.ready) :
    id ∈ b.status.blacklisted ↔ l.Blocked (rules.terms effect) b.stage id := by
  rw [h.blacklisted, Ledger.Blocked]
  refine and_congr_right fun _ => or_congr_right ?_
  constructor
  · rintro ⟨failed, hfailed, hfinished, rfl | hdep⟩
    · have hpending := (hb.consistent.mem_ready_iff.1 hready).1
      exact absurd hfinished (Schedule.Consistent.not_isFinished_of_pending hpending)
    · exact ⟨failed, hfailed, hdep⟩
  · rintro ⟨failed, hfailed, hdep⟩
    have hids := (Ledger.mem_failures_iff.1 hfailed).1
    refine ⟨failed, hfailed, ?_, .inr hdep⟩
    exact hb.consistent.isFinished_of_dependsOn hfits (.inl hready) hids hdep

/-- In a build that is not stopped a unit is skipped for one reason only, that it is blacklisted. -/
theorem Follows.skipReason?_eq (h : b.Follows t l) (id : String) :
    b.status.skipReason? id = if id ∈ b.status.blacklisted then some .blacklisted else none := by
  simp [BuildStatus.skipReason?, h.halted, BuildStatus.isBlacklisted]

/-- A refused unit has come to what the ledger says. -/
theorem Follows.settle_of_refusal (hfits : b.stage.Fits rules.units) (hb : b.Sound rules stages)
    {effect : Effect} (h : b.Follows (rules.terms effect) l) {id : String}
    (hready : id ∈ b.schedule.ready) {ending : Ending} {plans : UnitPlans}
    (hrefusal : Refusal b id ending plans) :
    l.settle (rules.terms effect) b.stage id = (ending, l.state id) := by
  have hblocked := h.mem_blacklisted_iff hfits hb hready
  cases hrefusal with
  | @skip reason hskip =>
    rw [h.skipReason?_eq] at hskip
    split at hskip
    next hgiven =>
      obtain rfl := Option.some.inj hskip
      exact Ledger.settle_of_blocked (hblocked.1 hgiven)
    next => cases hskip
  | unplanned hskip hplan =>
    rw [h.skipReason?_eq] at hskip
    split at hskip
    next => cases hskip
    next hgiven =>
      rw [h.plans id (hb.mem_pendingIds_of_mem_ready hready)] at hplan
      exact Ledger.settle_of_error (mt hblocked.2 hgiven) hplan

/-- A started lane comes to what the ledger says. -/
theorem Follows.settle_of_start (hfits : b.stage.Fits rules.units) (hb : b.Sound rules stages)
    {effect : Effect} (ho : rules.Orderly effect stages) (h : b.Follows (rules.terms effect) l)
    {id : String} (hready : id ∈ b.schedule.ready) (hskip : b.status.skipReason? id = none)
    {plan : ExecutionPlan} (hplan : b.plans.get id = .ok plan) :
    l.settle (rules.terms effect) b.stage id =
      ((b.laneFor rules id plan).ending, (b.laneFor rules id plan).work.state) := by
  have hpending := (hb.consistent.mem_ready_iff.1 hready).1
  have hids := hb.mem_ids_of_mem_ready hready
  have hgiven : id ∉ b.status.blacklisted := by
    intro hgiven
    rw [h.skipReason?_eq, if_pos hgiven] at hskip
    cases hskip
  have hstate : (Keyed.find? id b.states).getD {} = l.state id := by
    refine h.idle_state id (hb.consistent.notMem_of_pending hpending) fun hboth => ?_
    exact Schedule.Consistent.not_isFinished_of_pending hpending hboth.2
  have hplan' : b.stage.plans.get id = .ok plan := by
    rw [← h.plans id (hb.mem_pendingIds_of_mem_ready hready), hplan]
  have hblocked := mt (h.mem_blacklisted_iff hfits hb hready).2 hgiven
  have hwork := ho.work_eq id (hfits.mem_ids hids) (b.lanes + 1) (l.state id) plan
  rw [Ledger.settle_of_ok hblocked hplan', Lane.ending_eq, laneFor, hstate]
  simp only [BuildRules.terms, ← hwork]

/-! ### Steps -/

/-- What lanes do to their own places and to the queue does not matter to what follows. -/
theorem Follows.of_lanes (h : b.Follows t l) (hstatus : b'.status = b.status)
    (hstage : b'.stage = b.stage) (hplans : b'.plans = b.plans) (hstates : b'.states = b.states)
    (hschedule : b'.schedule = b.schedule)
    (hlanes : ∀ lane ∈ b'.active, ∃ same ∈ b.active, lane.unit = same.unit ∧
      lane.ending = same.ending ∧ lane.work = same.work)
    (hunits : (b.active.map (·.unit)).Perm (b'.active.map (·.unit))) : b'.Follows t l where
  halted := by
    rw [hstatus]
    exact h.halted
  blacklisted := by
    rw [hstatus, hstage, hschedule]
    exact h.blacklisted
  plans := by
    rw [hplans, hstage, hschedule]
    exact h.plans
  lanes := by
    intro lane hlane
    obtain ⟨same, hsame, hunit, hending, hwork⟩ := hlanes lane hlane
    rw [hstage, hunit, hending, hwork]
    exact h.lanes same hsame
  finished_state := by
    rw [hstage, hschedule, hstates]
    exact h.finished_state
  idle_state := by
    intro id hid hnot
    rw [hstates]
    refine h.idle_state id (mt hunits.mem_iff.1 hid) ?_
    rwa [hstage, hschedule] at hnot

section steps

variable {effect : Effect} (ho : rules.Orderly effect stages) (hlineup : Lineup rules.units stages)
  (hb : b.Sound rules stages)
include ho hlineup hb

/-- What a unit comes to adds to what is given up just as its failure adds to what has been
recorded. -/
theorem Follows.status_close (h : b.Follows (rules.terms effect) l) {id : String} {ending : Ending}
    (hid : id ∈ b.stage.ids) (hsettle : (l.settle (rules.terms effect) b.stage id).1 = ending) :
    (b.status.after rules.units rules.policy id ending).halted = false ∧
      ∀ other, other ∈ (b.status.after rules.units rules.policy id ending).blacklisted ↔
        rules.policy = .failAtEnd ∧
          ((∃ failed ∈ l.failed, failed = other ∨ rules.units.DependsOn other failed) ∨
            ∃ failed ∈ l.failures (rules.terms effect) b.stage,
              (b.schedule.mark id ending.status).isFinished failed = true ∧
                (failed = other ∨ rules.units.DependsOn other failed)) := by
  have hunit := (hlineup.fits _ hb.stage_mem).mem_ids hid
  have hplain : ∀ error steps lastPhase, ending = .failed error steps lastPhase →
      error.isConfiguration = false := by
    rintro error steps lastPhase rfl
    exact Ledger.error_of_settle (P := fun error => error.isConfiguration = false)
      (ho.planned _ hb.stage_mem id hid) (ho.worked id hunit) hsettle
  have hscheduled : id ∈ b.schedule.ids := hb.schedule_ids ▸ hid
  have hafter := fun other =>
    BuildStatus.after_iff rules.units b.status id other ho.policy_ne hplain
  refine ⟨(hafter id).1.trans h.halted, fun other => ?_⟩
  rw [(hafter other).2, h.blacklisted]
  simp only [Schedule.isFinished_mark_iff hscheduled ending.isTerminal_status]
  constructor
  · rintro (⟨hpolicy, hbefore | ⟨failed, hfailed, hfinished, hagainst⟩⟩ |
      ⟨hpolicy, houtcome, hagainst⟩)
    · exact ⟨hpolicy, .inl hbefore⟩
    · exact ⟨hpolicy, .inr ⟨failed, hfailed, .inr hfinished, hagainst⟩⟩
    · have hfailed := Ledger.mem_failures_iff.2 ⟨hid, hsettle ▸ houtcome⟩
      exact ⟨hpolicy, .inr ⟨id, hfailed, .inl rfl, hagainst⟩⟩
  · rintro ⟨hpolicy, hbefore | ⟨failed, hfailed, rfl | hfinished, hagainst⟩⟩
    · exact .inl ⟨hpolicy, .inl hbefore⟩
    · exact .inr ⟨hpolicy, hsettle ▸ (Ledger.mem_failures_iff.1 hfailed).2, hagainst⟩
    · exact .inl ⟨hpolicy, .inr ⟨failed, hfailed, hfinished, hagainst⟩⟩

/-- A unit that is refused gets the result that the ledger has for it. -/
theorem Follows.refuse (h : b.Follows (rules.terms effect) l) {id : String} {rest : List String}
    {ending : Ending} {plans : UnitPlans} (hposition : b.position = .walking (id :: rest))
    (hrefusal : Refusal b id ending plans) :
    Follows (rules.terms effect) l
        { b.close rules id ending with plans, position := .walking rest } ∧
      (expected (rules.terms effect) l
        { b.close rules id ending with plans, position := .walking rest }).Perm
          (b.expected (rules.terms effect) l) := by
  have hready := hb.mem_ready hposition
  have hid := hb.mem_ids_of_mem_ready hready
  have hpending := (hb.consistent.mem_ready_iff.1 hready).1
  have hnotFinished := Schedule.Consistent.not_isFinished_of_pending hpending
  have hsettle := h.settle_of_refusal (hlineup.fits _ hb.stage_mem) hb hready hrefusal
  have hstatus := h.status_close ho hlineup hb hid (congrArg Prod.fst hsettle)
  have hperm := hb.pendingIds_perm_mark hposition ending.status_ne_pending
  have hfinished : ∀ other, (b.schedule.mark id ending.status).isFinished other = true ↔
      other = id ∨ b.schedule.isFinished other = true := fun other =>
    Schedule.isFinished_mark_iff (Schedule.mem_ids_of_statusOf? hpending) ending.isTerminal_status
  refine ⟨⟨hstatus.1, hstatus.2, ?_, h.lanes, ?_, ?_⟩, ?_⟩
  · intro other hother
    obtain ⟨hne, hbefore⟩ :=
      hb.ne_and_mem_of_mem_pendingIds_mark hposition ending.status_ne_pending hother
    exact (hrefusal.get_eq hne).trans (h.plans other hbefore)
  · intro other hmem hother
    rcases (hfinished other).1 hother with rfl | hbefore
    · have hidle := hb.consistent.notMem_of_pending hpending
      have hstate := h.idle_state other hidle fun hboth => hnotFinished hboth.2
      exact hstate.trans (congrArg Prod.snd hsettle).symm
    · exact h.finished_state other hmem hbefore
  · intro other hother hnot
    exact h.idle_state other hother fun hboth =>
      hnot ⟨hboth.1, (hfinished other).2 (.inr hboth.2)⟩
  · refine resultsWith_refuse _ _ ?_
    rw [← Ledger.result_eq hsettle]
    exact (hperm.map _).append_right _

/-- A unit that is started is expected to come to the result that the ledger has for it, whenever it
is started. -/
theorem Follows.start (h : b.Follows (rules.terms effect) l) {id : String} {rest : List String}
    {plan : ExecutionPlan} (hposition : b.position = .walking (id :: rest))
    (hskip : b.status.skipReason? id = none) (hplan : b.plans.get id = .ok plan) :
    Follows (rules.terms effect) l { b.start rules id plan with position := .walking rest } ∧
      (expected (rules.terms effect) l
        { b.start rules id plan with position := .walking rest }).Perm
          (b.expected (rules.terms effect) l) := by
  have hready := hb.mem_ready hposition
  have hid := hb.mem_ids_of_mem_ready hready
  have hpending := (hb.consistent.mem_ready_iff.1 hready).1
  have hsettle := h.settle_of_start (hlineup.fits _ hb.stage_mem) hb ho hready hskip hplan
  have hactive := active_start_perm rules b id plan
  have hperm := hb.pendingIds_perm_mark hposition UnitStatus.running_ne_pending
  have hfinished : ∀ other, (b.schedule.mark id .running).isFinished other = true ↔
      b.schedule.isFinished other = true := fun other =>
    Schedule.isFinished_mark_running_iff hpending
  refine ⟨⟨h.halted, ?_, ?_, ?_, ?_, ?_⟩, ?_⟩
  · intro other
    simp only [hfinished, BuildRun.start]
    exact h.blacklisted other
  · intro other hother
    obtain ⟨hne, hbefore⟩ :=
      hb.ne_and_mem_of_mem_pendingIds_mark hposition UnitStatus.running_ne_pending hother
    exact (get_erase_of_ne hne b.plans).trans (h.plans other hbefore)
  · intro lane hlane
    rcases List.mem_cons.1 (hactive.mem_iff.1 hlane) with rfl | hbefore
    · exact hsettle
    · exact h.lanes lane hbefore
  · intro other hmem hother
    have hbefore := (hfinished other).1 hother
    have hne : other ≠ id := by
      rintro rfl
      exact Schedule.Consistent.not_isFinished_of_pending hpending hbefore
    refine .trans ?_ (h.finished_state other hmem hbefore)
    exact congrArg (·.getD {}) (Keyed.find?_erase_of_ne hne b.states)
  · intro other hother hnot
    have hunits := (hactive.map (·.unit)).mem_iff (a := other)
    rw [List.map_cons, List.mem_cons] at hunits
    obtain ⟨hne, hidle⟩ := not_or.1 (mt hunits.2 hother)
    refine .trans ?_ (h.idle_state other hidle fun hboth =>
      hnot ⟨hboth.1, (hfinished other).2 hboth.2⟩)
    exact congrArg (·.getD {}) (Keyed.find?_erase_of_ne hne b.states)
  · refine resultsWith_start _ _ ?_
    rw [← Ledger.result_eq hsettle]
    exact (hperm.map _).append_right _

/-- Recording the result of a lane only moves it from those that are expected to those that there
are. -/
theorem Follows.record (h : b.Follows (rules.terms effect) l) {lane : Lane} {released : Bool}
    {delivered : List (Lane × Bool)} (hdelivered : b.delivered = (lane, released) :: delivered) :
    Follows (rules.terms effect) l ({ b with delivered }.record rules lane) ∧
      (expected (rules.terms effect) l ({ b with delivered }.record rules lane)).Perm
        (b.expected (rules.terms effect) l) := by
  have hactive := active_perm_of_delivered hdelivered
  have hlane : lane ∈ b.active := hactive.mem_iff.2 List.mem_cons_self
  have hsettle := h.lanes lane hlane
  have hrunning := (hb.consistent.running_iff _).2 (List.mem_map_of_mem hlane)
  have hscheduled := Schedule.mem_ids_of_statusOf? hrunning
  have hid := hb.schedule_ids ▸ hscheduled
  have hstatus := h.status_close ho hlineup hb hid (congrArg Prod.fst hsettle)
  have hfinished : ∀ other,
      (b.schedule.mark lane.unit lane.ending.status).isFinished other = true ↔
        other = lane.unit ∨ b.schedule.isFinished other = true := fun other =>
    Schedule.isFinished_mark_iff hscheduled lane.ending.isTerminal_status
  have hpending : ({ b with delivered }.record rules lane).schedule.pendingIds =
      b.schedule.pendingIds := hb.pendingIds_mark_of_delivered hdelivered
  refine ⟨⟨hstatus.1, hstatus.2, ?_, ?_, ?_, ?_⟩, ?_⟩
  · intro other hother
    exact h.plans other (hpending ▸ hother)
  · intro other hother
    exact h.lanes other (hactive.mem_iff.2 (List.mem_cons_of_mem _ hother))
  · intro other hmem hother
    show (Keyed.find? other (Keyed.insert lane.unit lane.work.state b.states)).getD {} = _
    by_cases hne : other = lane.unit
    · rw [hne, Keyed.find?_insert_self]
      exact (congrArg Prod.snd hsettle).symm
    · rw [Keyed.find?_insert_of_ne hne]
      exact h.finished_state other hmem (((hfinished other).1 hother).resolve_left hne)
  · intro other hother hnot
    have hne : other ≠ lane.unit := by
      rintro rfl
      exact hnot ⟨hid, (hfinished _).2 (.inl rfl)⟩
    show (Keyed.find? other (Keyed.insert lane.unit lane.work.state b.states)).getD {} = _
    rw [Keyed.find?_insert_of_ne hne]
    refine h.idle_state other ?_ fun hboth => hnot ⟨hboth.1, (hfinished other).2 (.inr hboth.2)⟩
    rw [(hactive.map _).mem_iff, List.map_cons, List.mem_cons, not_or]
    exact ⟨hne, hother⟩
  · unfold expected
    rw [hpending]
    exact resultsWith_record hdelivered _

omit ho hlineup in
/-- The ledger goes on to the next segment when the build does, and the same results are
expected. -/
theorem Follows.enter (h : b.Follows (rules.terms effect) l) {stage : Stage} {rest : List Stage}
    (hposition : b.position = .ended) (hrest : b.rest = stage :: rest) :
    Follows (rules.terms effect) (l.next (rules.terms effect) b.stage)
        (b.enter rules stage rest) ∧
      expected (rules.terms effect) (l.next (rules.terms effect) b.stage)
        (b.enter rules stage rest) = b.expected (rules.terms effect) l := by
  obtain ⟨hactive, hpending⟩ := hb.ended hposition
  have hconsistent := hb.consistent
  rw [hactive] at hconsistent
  have hall : ∀ id, b.schedule.isFinished id = true := fun id =>
    hconsistent.isFinished_of_notMem_pendingIds (by simp [hpending])
  have hfresh : ∀ id ∈ stage.ids,
      (Schedule.ofMembers rules.units stage.members).isFinished id ≠ true := fun id hid =>
    Schedule.Consistent.not_isFinished_of_pending (Schedule.statusOf?_ofMembers _ _ hid)
  refine ⟨⟨h.halted, ?_, fun _ _ => rfl, ?_, ?_, ?_⟩, ?_⟩
  · intro id
    refine (h.blacklisted id).trans (and_congr_right fun _ => ?_)
    have hnone : ¬ ∃ failed ∈ (l.next (rules.terms effect) b.stage).failures
        (rules.terms effect) stage,
        (Schedule.ofMembers rules.units stage.members).isFinished failed = true ∧
          (failed = id ∨ rules.units.DependsOn id failed) := by
      rintro ⟨failed, hfailed, hfinished, -⟩
      exact hfresh failed (Ledger.mem_failures_iff.1 hfailed).1 hfinished
    rw [show (b.enter rules stage rest).stage = stage from rfl,
      show (b.enter rules stage rest).schedule = Schedule.ofMembers rules.units stage.members
        from rfl]
    refine .trans ?_ (or_iff_left hnone).symm
    simp only [Ledger.next, List.mem_append, or_and_right, exists_or, hall, true_and]
  · intro lane hlane
    rw [show (b.enter rules stage rest).active = [] from hactive] at hlane
    cases hlane
  · intro id hid hfinished
    exact absurd hfinished (hfresh id hid)
  · intro id hidle _
    show (Keyed.find? id b.states).getD {} = if id ∈ b.stage.ids then _ else _
    split
    next hid => exact h.finished_state id hid (hall id)
    next hid => exact h.idle_state id (by simp [hactive]) fun hboth => hid hboth.1
  · unfold expected
    rw [hb.resultsWith_enter hposition, hrest, hpending]
    show b.resultsWith ((Schedule.ofMembers rules.units stage.members).pendingIds.map _ ++ _) = _
    rw [Schedule.pendingIds_ofMembers]
    rfl

/-- Every step of the coordinator leaves the expected results as they are, their order apart. -/
theorem Follows.advance (h : b.Follows (rules.terms effect) l) (hstep : Advance rules b b') :
    ∃ l', b'.Follows (rules.terms effect) l' ∧
      (b'.expected (rules.terms effect) l').Perm (b.expected (rules.terms effect) l) := by
  cases hstep with
  | @onward position _ =>
    have hfollows : Follows (rules.terms effect) l { b with position } :=
      h.of_lanes rfl rfl rfl rfl rfl (fun lane hlane => ⟨lane, hlane, rfl, rfl, rfl⟩) (.refl _)
    exact ⟨l, hfollows, .refl _⟩
  | refuse hposition hrefusal => exact ⟨l, h.refuse ho hlineup hb hposition hrefusal⟩
  | start hposition hskip hplan _ => exact ⟨l, h.start ho hlineup hb hposition hskip hplan⟩
  | record _ hdelivered => exact ⟨l, h.record ho hlineup hb hdelivered⟩
  | enter hposition hrest =>
    obtain ⟨hfollows, heq⟩ := h.enter hb hposition hrest
    exact ⟨_, hfollows, .of_eq heq⟩

/-- Every step stays in keeping with a ledger and expects the same results. -/
theorem Follows.step (h : b.Follows (rules.terms effect) l) (hstep : Step rules b b') :
    ∃ l', b'.Follows (rules.terms effect) l' ∧
      (b'.expected (rules.terms effect) l').Perm (b.expected (rules.terms effect) l) := by
  have hsame : ∀ lane ∈ b.active, ∃ same ∈ b.active, lane.unit = same.unit ∧
      lane.ending = same.ending ∧ lane.work = same.work :=
    fun lane hlane => ⟨lane, hlane, rfl, rfl, rfl⟩
  cases hstep with
  | idle => exact ⟨l, h, .refl _⟩
  | advance hstep => exact h.advance ho hlineup hb hstep
  | @act pre post lane action hworking _ =>
    refine ⟨l, h.of_lanes rfl rfl rfl rfl rfl ?_ (.of_eq ?_),
      .of_eq (resultsWith_act action hworking _)⟩
    · intro other hother
      obtain ⟨same, hmem, heq⟩ := exists_same_of_act hworking hother
      rw [heq]
      exact ⟨same, hmem, rfl, rfl, rfl⟩
    · simp [active, note, hworking]
  | deliver hworking _ _ =>
    have hactive := active_perm_of_working hworking
    refine ⟨l, h.of_lanes rfl rfl rfl rfl rfl ?_ (hactive.map _), resultsWith_deliver hworking _⟩
    exact fun lane hlane => hsame lane (hactive.mem_iff.2 hlane)
  | @release pre post lane released hdelivered =>
    have hactive : { b with delivered := pre ++ (lane, true) :: post }.active = b.active := by
      simp [active, hdelivered]
    refine ⟨l, h.of_lanes rfl rfl rfl rfl rfl ?_ ?_, .of_eq (resultsWith_release hdelivered _)⟩
    · rw [hactive]
      exact hsame
    · rw [hactive]

/-- Whatever moves are made, the same results are expected. -/
theorem Follows.after (h : b.Follows (rules.terms effect) l) (moves : List Move) :
    ∃ l', (b.after rules moves).Follows (rules.terms effect) l' ∧
      ((b.after rules moves).expected (rules.terms effect) l').Perm
        (b.expected (rules.terms effect) l) := by
  induction moves generalizing b l with
  | nil => exact ⟨l, h, .refl _⟩
  | cons move moves ih =>
    have hstep := step_next rules b move
    obtain ⟨l', hfollows, hperm⟩ := h.step ho hlineup hb hstep
    obtain ⟨l'', hlast, hrest⟩ := ih (hb.step hlineup hstep) hfollows
    exact ⟨l'', hlast, hrest.trans hperm⟩

end steps

/-- Of a build that is over nothing more is expected. -/
theorem Sound.expected_of_isOver (h : b.Sound rules stages) (hover : b.isOver = true) :
    b.expected t l = b.summary.results := by
  simp only [isOver, Bool.and_eq_true, decide_eq_true_eq, List.isEmpty_iff] at hover
  obtain ⟨hactive, hpending⟩ := h.ended hover.1
  simp [expected, resultsWith, hactive, hpending, hover.2, Ledger.results]

end BuildRun

end PhasedBuild
