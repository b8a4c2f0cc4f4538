import PhasedBuild.Proofs.Build.Confluence
import PhasedBuild.Proofs.Build.Ordering
import PhasedBuild.Proofs.Build.Starts
import PhasedBuild.Proofs.Build.States

/-!
# Units that are passed over

The coordinator lists the units that can be started and goes through the list in build order. A
unit that is not on the list has to wait for the next one, also if what it waits for comes to its
end in the meantime.

* `InLine`: a unit that is passed over depends on one that is listed, underway or refused.
* `Barred`: a unit that depends on a refused one is not started, unless failures are tolerated.
-/

namespace PhasedBuild

namespace BuildStatus

variable {units : UnitGraph} {policy : FailurePolicy} {status : BuildStatus} {id other : String}
  {ending : Ending}

/-- Whatever depends on a unit that is given up is given up. -/
def Closed (units : UnitGraph) (status : BuildStatus) : Prop :=
  ∀ id ∈ status.blacklisted, ∀ other, units.DependsOn other id → other ∈ status.blacklisted

/-- Blacklisting a unit gives up whatever depends on it. -/
theorem Closed.blacklist (h : status.Closed units) (id : String) :
    (status.blacklist units id).Closed units := by
  intro given hgiven other hdep
  rw [mem_blacklist_iff] at hgiven ⊢
  rcases hgiven with hold | rfl | hdown
  · exact .inl (h given hold other hdep)
  · exact .inr (.inr hdep)
  · exact .inr (.inr (hdep.trans hdown))

/-- Whatever a unit comes to, what depends on a unit that is given up is given up. -/
theorem Closed.after (h : status.Closed units) (id : String) (ending : Ending) :
    (status.after units policy id ending).Closed units := by
  cases ending with
  | succeeded _ _ => exact h
  | skipped _ => exact h
  | failed error _ _ =>
    have hkept : (if error.isConfiguration then status.halt else status).Closed units := by
      split <;> exact h
    cases policy with
    | failFast =>
      have hhalted : (if error.isConfiguration then status.halt else status).halt.Closed units :=
        hkept
      exact hhalted.blacklist id
    | failAtEnd => exact hkept.blacklist id
    | failNever => exact hkept

/-- What depends on a unit that must not be started must not be started either. -/
theorem Closed.skipReason?_ne_none (h : status.Closed units) (hid : status.skipReason? id ≠ none)
    (hdep : units.DependsOn other id) : status.skipReason? other ≠ none := by
  rw [skipReason?_ne_none_iff] at hid ⊢
  exact hid.imp_right fun hgiven => h id hgiven other hdep

/-- Unless failures of its kind have no effect, a failed unit takes along what depends on it. -/
theorem skipReason?_after_of_dependsOn {error : BuildError} (steps : Nat)
    (lastPhase : Option String) (hcause : error.kind = .configuration ∨ policy ≠ .failNever)
    (hdep : units.DependsOn other id) :
    (status.after units policy id (.failed error steps lastPhase)).skipReason? other ≠ none := by
  rw [skipReason?_ne_none_iff]
  rcases hcause with hkind | hpolicy
  · have hstops : ((Ending.failed error steps lastPhase).result id 0).Stops policy :=
      ⟨rfl, .inl (congrArg some hkind)⟩
    exact .inl (halted_after_of_stops hstops)
  · right
    cases policy with
    | failFast => exact (mem_blacklist_iff _ _ _ _).2 (.inr (.inr hdep))
    | failAtEnd => exact (mem_blacklist_iff _ _ _ _).2 (.inr (.inr hdep))
    | failNever => exact absurd rfl hpolicy

end BuildStatus

/-- There is no plan for a unit of a stage, and it is not for the configuration of the build. -/
def Stage.LacksPlan (stage : Stage) (id : String) : Prop :=
  ∃ error, stage.plans.get id = .error error ∧ error.kind ≠ .configuration

namespace BuildRun

variable {rules : BuildRules} {stages : List Stage} {b b' : BuildRun} {part : String × Nat}

/-! ### The units that are passed over -/

/-- A lane is active on a unit, or the unit has been refused. -/
def Delays (b : BuildRun) (part : String × Nat) : Prop :=
  part ∈ b.underway ∨ b.Refused part

/-- What the list is that the coordinator goes through: it stands in build order, and each unit that
waits without being listed depends on a unit that is listed, underway or refused. -/
structure Listed (units : UnitGraph) (b : BuildRun) (listed : List String) : Prop where
  sorted : listed.Pairwise fun id other => units.rank id < units.rank other
  passed : listed ≠ [] → ∀ id ∈ b.schedule.pendingIds, id ∉ listed →
    ∃ cause ∈ b.stage.ids, units.DependsOn id cause ∧
      (cause ∈ listed ∨ b.Delays (cause, b.stage.position))

/-- Whenever the coordinator goes through a list, the list is such a one. -/
def InLine (units : UnitGraph) (b : BuildRun) : Prop :=
  ∀ listed, b.position = .walking listed → b.Listed units listed

/-- The rest of a list is such a list when its first unit has been started or refused. -/
theorem Listed.tail {units : UnitGraph} {id : String} {rest : List String}
    (h : b.Listed units (id :: rest)) (hstage : b'.stage = b.stage)
    (hpending : ∀ other ∈ b'.schedule.pendingIds, other ≠ id ∧ other ∈ b.schedule.pendingIds)
    (hself : b'.Delays (id, b.stage.position))
    (hdelays : ∀ part, b.Delays part → b'.Delays part) : b'.Listed units rest where
  sorted := (List.pairwise_cons.1 h.sorted).2
  passed := by
    intro _ other hother hnot
    obtain ⟨hne, hbefore⟩ := hpending other hother
    have hnot' : other ∉ id :: rest := by simp [hne, hnot]
    obtain ⟨cause, hcause, hdep, hcase⟩ := h.passed (List.cons_ne_nil _ _) other hbefore hnot'
    rw [hstage]
    refine ⟨cause, hcause, hdep, ?_⟩
    rcases hcase with hlisted | hdelayed
    · rcases List.mem_cons.1 hlisted with rfl | hrest
      · exact .inr hself
      · exact .inl hrest
    · exact .inr (hdelays _ hdelayed)

/-- The units that can be started are such a list. -/
theorem Sound.listed_ready (h : b.Sound rules stages) (hlineup : Lineup rules.units stages) :
    b.Listed rules.units b.schedule.ready where
  sorted := by
    have hids : b.schedule.ready.Sublist b.stage.ids := by
      rw [← h.schedule_ids]
      exact List.filter_sublist.map _
    refine List.Pairwise.sublist hids ?_
    exact List.pairwise_map.2
      (UnitGraph.pairwise_rank.sublist (hlineup.fits _ h.stage_mem).sublist)
  passed := by
    intro _ id hid hnot
    obtain ⟨cause, hcause, hdep, hready | hactive⟩ :=
      h.consistent.exists_dependsOn_of_notMem_ready hid hnot
    · exact ⟨cause, h.schedule_ids ▸ hcause, hdep, .inl hready⟩
    · obtain ⟨lane, hlane, rfl⟩ := List.mem_map.1 hactive
      exact ⟨lane.unit, h.schedule_ids ▸ hcause, hdep,
        .inr (.inl (List.mem_map.2 ⟨lane, hlane, rfl⟩))⟩

/-- The list stays such a one while the coordinator stays where it is and no unit changes its
status. -/
theorem InLine.of_eq {units : UnitGraph} (h : b.InLine units) (hposition : b'.position = b.position)
    (hstage : b'.stage = b.stage) (hschedule : b'.schedule = b.schedule)
    (hdelays : ∀ part, b.Delays part → b'.Delays part) : b'.InLine units := by
  intro listed hlisted
  obtain ⟨hsorted, hpassed⟩ := h listed (hposition ▸ hlisted)
  refine ⟨hsorted, fun hne id hid hnot => ?_⟩
  obtain ⟨cause, hcause, hdep, hcase⟩ := hpassed hne id (hschedule ▸ hid) hnot
  rw [hstage]
  exact ⟨cause, hcause, hdep, hcase.imp_right (hdelays _)⟩

/-- No step of a build spoils the list that the coordinator goes through. -/
theorem InLine.step (h : b.InLine rules.units) (hlineup : Lineup rules.units stages)
    (hsound : b.Sound rules stages) (haccounted : b.Accounted stages)
    (hsequence : b.InSequence) (hstep : Step rules b b') : b'.InLine rules.units := by
  have hdelays : b.underway ⊆ b'.underway → ∀ part, b.Delays part → b'.Delays part :=
    fun hsub part hdelayed => hdelayed.imp (fun hpart => hsub hpart)
      fun hrefused => hrefused.step hlineup hsound haccounted hstep
  cases hstep with
  | idle => exact h
  | advance hstep =>
    cases hstep with
    | onward hstep =>
      rintro listed rfl
      cases hstep with
      | list _ _ =>
        have hready := hsound.listed_ready hlineup
        exact ⟨hready.sorted, hready.passed⟩
      | full _ _ _ => exact ⟨.nil, fun hne => absurd rfl hne⟩
    | @refuse id rest ending plans hposition _ =>
      intro listed heq
      obtain rfl := Position.walking.inj heq
      have hturn : b.TurnsTo (id, b.stage.position) := ⟨_, _, hposition, rfl⟩
      have hrefused : ({ b.close rules id ending with plans, position := .walking rest } :
          BuildRun).Refused (id, b.stage.position) := by
        have hsettled := settled_close rules b id ending
        have hstarted := started_close rules b id ending
        refine ⟨hsettled ▸ List.mem_append_right _ (List.mem_singleton_self _), ?_⟩
        exact hstarted ▸ hsequence.notMem_started hlineup haccounted
          (hturn.mem_outstanding hsound)
      refine (h _ hposition).tail rfl ?_ (.inr hrefused) (hdelays fun _ hpart => hpart)
      intro other hother
      exact hsound.ne_and_mem_of_mem_pendingIds_mark hposition ending.status_ne_pending hother
    | @start id rest plan hposition _ _ _ =>
      intro listed heq
      obtain rfl := Position.walking.inj heq
      have hunderway := (active_start_perm rules b id plan).map
        fun lane => (lane.unit, b.stage.position)
      refine (h _ hposition).tail rfl ?_ (.inl ?_) (hdelays fun part hpart => ?_)
      · intro other hother
        exact hsound.ne_and_mem_of_mem_pendingIds_mark hposition UnitStatus.running_ne_pending
          hother
      · exact hunderway.mem_iff.2 List.mem_cons_self
      · exact hunderway.mem_iff.2 (List.mem_cons_of_mem _ hpart)
    | record _ _ => rintro listed ⟨⟩
    | enter _ _ => rintro listed ⟨⟩
  | act hworking _ =>
    refine h.of_eq rfl rfl rfl (hdelays fun part hpart => ?_)
    simpa [underway, active, note, hworking] using hpart
  | deliver hworking _ _ =>
    refine h.of_eq rfl rfl rfl (hdelays fun part hpart => ?_)
    exact ((active_perm_of_working hworking).map _).mem_iff.1 hpart
  | release hdelivered =>
    refine h.of_eq rfl rfl rfl (hdelays fun part hpart => ?_)
    simpa [underway, active, hdelivered] using hpart

/-! ### What becomes of units that depend on a refused one -/

/-- A unit that has been started in a segment has been so after the ends there of the units that it
depends on. -/
theorem InOrder.mem_settled_of_started (h : b.InOrder stages rules)
    (haccounted : b.Accounted stages) {id other : String} {segment : Nat}
    (hid : (id, segment) ∈ b.started) (hother : (other, segment) ∈ stages.flatMap Stage.pairs)
    (hdep : rules.units.DependsOn id other) : (other, segment) ∈ b.settled := by
  obtain ⟨entry, hentry, hstart⟩ := List.mem_filterMap.1 hid
  have haction : entry.action = .reported (.ofUnit id segment .started) := by
    unfold Action.start? at hstart
    split at hstart
    · next heq =>
      obtain ⟨rfl, rfl⟩ := Prod.mk.inj (Option.some.inj hstart)
      exact heq
    · cases hstart
  have hkey : entry.key = (id, segment) := by
    rcases h.labelled entry hentry _ haction with hinner | ⟨change, heq⟩
    · cases hinner
    · obtain ⟨rfl, rfl, -⟩ := Event.ofUnit.inj heq
      rfl
  obtain ⟨pre, post, htrace⟩ := List.append_of_mem hentry
  have hended := h.ordered pre post entry htrace _ hother (hkey ▸ .inr ⟨rfl, hdep⟩)
  rw [← haccounted.map_endings, endings, htrace, List.filterMap_append, List.map_append]
  exact List.mem_append_left _ hended

/-- A refusal has no consequences for the units that depend on the refused one, if failures have
none. -/
def Tolerated (rules : BuildRules) (stages : List Stage) (part : String × Nat) : Prop :=
  rules.policy = .failNever ∧ ∃ stage ∈ stages,
    part.1 ∈ stage.ids ∧ part.2 = stage.position ∧ stage.LacksPlan part.1

/-- A unit that depends on a refused one has not been started in the segment and will not be, unless
the refusal is tolerated. -/
structure Barred (rules : BuildRules) (stages : List Stage) (b : BuildRun) : Prop where
  closed : b.status.Closed rules.units
  refused : ∀ part, b.Refused part → Tolerated rules stages part ∨
    ∀ id, rules.units.DependsOn id part.1 →
      b.status.skipReason? id ≠ none ∧ (id, part.2) ∉ b.started

namespace Barred

/-- What changes neither the status nor what has been started or settled bars the same units. -/
theorem of_eq (h : b.Barred rules stages) (hstatus : b'.status = b.status)
    (hstarted : b'.started = b.started) (hsettled : b'.settled = b.settled) :
    b'.Barred rules stages where
  closed := hstatus ▸ h.closed
  refused := by
    intro part hrefused
    rw [Refused, hsettled, hstarted] at hrefused
    rw [hstatus, hstarted]
    exact h.refused part hrefused

/-- Closing a unit leaves the units barred that were so. -/
theorem of_close (h : b.Barred rules stages) {id : String} {ending : Ending}
    (hstatus : b'.status = b.status.after rules.units rules.policy id ending)
    (hstarted : b'.started = b.started)
    (hsettled : b'.settled = b.settled ++ [(id, b.stage.position)])
    (hself : b'.Refused (id, b.stage.position) → Tolerated rules stages (id, b.stage.position) ∨
      ∀ other, rules.units.DependsOn other id →
        b'.status.skipReason? other ≠ none ∧ (other, b.stage.position) ∉ b.started) :
    b'.Barred rules stages where
  closed := by
    rw [hstatus]
    exact h.closed.after id ending
  refused := by
    intro part hrefused
    have hmem := hsettled ▸ hrefused.1
    rcases List.mem_append.1 hmem with hold | hnew
    · refine (h.refused part ⟨hold, hstarted ▸ hrefused.2⟩).imp_right fun hbarred other hdep => ?_
      rw [hstatus, hstarted]
      exact ⟨BuildStatus.skipReason?_after (hbarred other hdep).1, (hbarred other hdep).2⟩
    · obtain rfl := List.mem_singleton.1 hnew
      rw [hstarted]
      exact hself hrefused

/-- A unit that is refused bars those that depend on it, as they are blacklisted with it. -/
theorem refuse (h : b.Barred rules stages) (hlineup : Lineup rules.units stages)
    (hsound : b.Sound rules stages) (haccounted : b.Accounted stages)
    (horder : b.InOrder stages rules) (hplans : b.PlansKept rules) {id : String}
    {rest : List String} {ending : Ending} {plans : UnitPlans}
    (hposition : b.position = .walking (id :: rest)) (hrefusal : Refusal b id ending plans) :
    Barred rules stages { b.close rules id ending with plans, position := .walking rest } := by
  have hready := hsound.mem_ready hposition
  have hturn : b.TurnsTo (id, b.stage.position) := ⟨_, _, hposition, rfl⟩
  have hparts := haccounted.perm.mem_iff.1
    (List.mem_append_right _ (List.mem_append_right _ (hturn.mem_outstanding hsound)))
  have hnot : ∀ other, rules.units.DependsOn other id → (other, b.stage.position) ∉ b.started :=
    fun other hdep hstarted => hturn.notMem_settled hlineup hsound haccounted
      (horder.mem_settled_of_started haccounted hstarted hparts hdep)
  refine h.of_close rfl (started_close rules b id ending) (settled_close rules b id ending) ?_
  rintro -
  cases hrefusal with
  | @skip reason hskip =>
    right
    intro other hdep
    have hother := h.closed.skipReason?_ne_none (by simp [hskip]) hdep
    exact ⟨BuildStatus.skipReason?_after hother, hnot other hdep⟩
  | @unplanned error _ hplan =>
    by_cases hcause : error.kind = .configuration ∨ rules.policy ≠ .failNever
    · right
      intro other hdep
      exact ⟨BuildStatus.skipReason?_after_of_dependsOn 0 none hcause hdep, hnot other hdep⟩
    · push Not at hcause
      have hstage : b.stage.plans.get id = .error error :=
        hplans.get_of_mem_ready hsound hready ▸ hplan
      exact .inl ⟨hcause.2, b.stage, hsound.stage_mem, hsound.mem_ids_of_mem_ready hready, rfl,
        error, hstage, hcause.1⟩

/-- A unit that is started was not skipped, so it was not barred. -/
theorem start (h : b.Barred rules stages) {id : String} {rest : List String}
    {plan : ExecutionPlan} (hskip : b.status.skipReason? id = none) :
    Barred rules stages { b.start rules id plan with position := .walking rest } where
  closed := h.closed
  refused := by
    intro part hrefused
    have hstarted : started { b.start rules id plan with position := .walking rest } = _ :=
      started_start rules b id plan
    rw [Refused, hstarted, List.mem_append, not_or] at hrefused
    refine (h.refused part ⟨hrefused.1, hrefused.2.1⟩).imp_right fun hbarred other hdep => ?_
    refine ⟨(hbarred other hdep).1, ?_⟩
    rw [hstarted, List.mem_append, List.mem_singleton]
    rintro (hold | heq)
    · exact (hbarred other hdep).2 hold
    · obtain ⟨rfl, -⟩ := Prod.mk.inj heq
      exact (hbarred other hdep).1 hskip

/-- No step of a build starts a unit that is barred. -/
theorem step (h : b.Barred rules stages) (hlineup : Lineup rules.units stages)
    (hsound : b.Sound rules stages) (haccounted : b.Accounted stages)
    (horder : b.InOrder stages rules) (hplans : b.PlansKept rules) (hsequence : b.InSequence)
    (hstep : Step rules b b') : b'.Barred rules stages := by
  cases hstep with
  | idle => exact h
  | advance hstep =>
    cases hstep with
    | onward _ => exact h.of_eq rfl rfl rfl
    | refuse hposition hrefusal =>
      exact h.refuse hlineup hsound haccounted horder hplans hposition hrefusal
    | start _ hskip _ _ => exact h.start hskip
    | @record lane _ delivered _ hdelivered =>
      have hlane := mem_active_of_delivered hdelivered
      have hmem := hsequence.mem_started_of_mem_underway (List.mem_map.2 ⟨lane, hlane, rfl⟩)
      have hstarted : ({ b with delivered }.record rules lane).started = b.started :=
        started_close rules { b with delivered } lane.unit lane.ending
      refine h.of_close rfl hstarted
        (settled_close rules { b with delivered } lane.unit lane.ending) fun hrefused => ?_
      exact absurd (hstarted ▸ hmem) hrefused.2
    | enter _ _ => exact h.of_eq rfl rfl rfl
  | act _ hnext => exact h.of_eq rfl (started_act hnext _) rfl
  | deliver _ _ _ => exact h.of_eq rfl rfl rfl
  | release _ => exact h.of_eq rfl rfl rfl

end Barred

end BuildRun

end PhasedBuild
