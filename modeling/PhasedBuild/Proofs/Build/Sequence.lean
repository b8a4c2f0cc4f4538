import PhasedBuild.Proofs.Build.Passes
import PhasedBuild.Proofs.Build.Unplannable
import PhasedBuild.Proofs.Sorting

/-!
# Builds of one unit at a time

With one place the units are started one after the other, but still by way of lists of units that
can be started. `Session.sequential_build_order` says how far that goes by the build order, and what
the reasons are where it does not.

* `Sequential.started_isPrefix`: if no unit is refused and the coordinator never finds a place given
  back for a result that it has not recorded, the starts are a walk through the sorted units.
* `Sequential.exists_cause_of_starts`: a unit is started before one that stands before it only if
  the latter depends on a unit that keeps it off the list.
* `Sequential.exists_cause_of_results`, `Sequential.exists_cause_of_refusal`: the same for results.
* `Publishing.later_unit_goes_first`: so it does happen.
-/

namespace PhasedBuild

namespace Lineup

/-- The units of a lineup stand in the order of their segments, and in each segment in build
order. -/
theorem pairwise_pairs {g : UnitGraph} {stages : List Stage} (h : Lineup g stages) :
    (stages.flatMap Stage.pairs).Pairwise fun part other =>
      part.2 < other.2 ∨ part.2 = other.2 ∧ g.rank part.1 < g.rank other.1 := by
  refine List.pairwise_flatMap.2 ⟨fun stage hstage => ?_, ?_⟩
  · have hsorted : stage.ids.Pairwise fun id other => g.rank id < g.rank other :=
      List.pairwise_map.2 (UnitGraph.pairwise_rank.sublist (h.fits stage hstage).sublist)
    exact List.pairwise_map.2 (hsorted.imp fun hlt => .inr ⟨rfl, hlt⟩)
  · refine h.ordered.imp fun {stage other} hordered part hpart part' hpart' => .inl ?_
    obtain ⟨hid, hposition⟩ := Stage.mem_pairs_iff.1 hpart
    obtain ⟨-, hposition'⟩ := Stage.mem_pairs_iff.1 hpart'
    rw [hposition, hposition']
    refine hordered fun hnil => ?_
    simp [Stage.ids, hnil] at hid

end Lineup

namespace BuildRun

variable {rules : BuildRules} {stages : List Stage} {b b' : BuildRun} {part : String × Nat}

/-! ### Turning to units -/

/-- The lane of a unit has done its work and given its place back, and its result has not been
recorded. -/
def HasReleased (b : BuildRun) (part : String × Nat) : Prop :=
  ∃ lane, (lane, true) ∈ b.delivered ∧ part = (lane.unit, b.stage.position)

/-- At some moment of the moves the coordinator turned to a unit, and the build was in such a
state. -/
def TurnedTo (rules : BuildRules) (b : BuildRun) (moves : List Move) (part : String × Nat)
    (P : BuildRun → Prop) : Prop :=
  ∃ earlier rest, moves = earlier ++ rest ∧ (b.after rules earlier).TurnsTo part ∧
    P (b.after rules earlier)

/-- If no place is taken, the lanes that are active have given theirs back. -/
theorem hasReleased_of_mem_underway (hroom : b.occupied < 1) (hpart : part ∈ b.underway) :
    b.HasReleased part := by
  have hoccupied : b.working.length + b.delivered.countP (!·.2) = 0 := Nat.lt_one_iff.1 hroom
  obtain ⟨hworking, hdelivered⟩ := Nat.add_eq_zero_iff.1 hoccupied
  obtain ⟨lane, hlane, rfl⟩ := List.mem_map.1 hpart
  rw [active, List.length_eq_zero_iff.1 hworking, List.nil_append] at hlane
  obtain ⟨⟨lane, released⟩, hmem, rfl⟩ := List.mem_map.1 hlane
  have hreleased := List.countP_eq_zero.1 hdelivered _ hmem
  obtain rfl : released = true := by simpa using hreleased
  exact ⟨lane, hmem, rfl⟩

/-- The coordinator turns to a part only while the stage of that part is being built. -/
theorem TurnsTo.stage_eq (hlineup : Lineup rules.units stages) (hsound : b.Sound rules stages)
    {id : String} {stage : Stage} (hturn : b.TurnsTo (id, stage.position)) (hid : id ∈ stage.ids)
    (hstage : stage ∈ stages) : b.stage = stage := by
  obtain ⟨first, rest, hposition, heq⟩ := hturn
  obtain ⟨rfl, hsame⟩ := Prod.mk.inj heq
  have hmem := hsound.mem_ids_of_mem_ready (hsound.mem_ready hposition)
  exact hlineup.stage_eq hsound.stage_mem hstage hmem hid hsame.symm

/-! ### A build of one unit at a time -/

/-- What holds throughout a build in which one lane has a place. -/
structure Sequential (rules : BuildRules) (stages : List Stage) (b : BuildRun) : Prop where
  sound : b.Sound rules stages
  accounted : b.Accounted stages
  inOrder : b.InOrder stages rules
  plansKept : b.PlansKept rules
  inSequence : b.InSequence
  inLine : b.InLine rules.units
  barred : b.Barred rules stages

namespace Sequential

/-- With one place, no step of a build breaks the sequence. -/
theorem step (hlineup : Lineup rules.units stages) (hone : rules.capacity = 1)
    (h : b.Sequential rules stages) (hstep : Step rules b b') : b'.Sequential rules stages where
  sound := h.sound.step hlineup hstep
  accounted := h.accounted.step h.sound hstep
  inOrder := h.inOrder.step hlineup h.sound h.accounted hstep
  plansKept := h.plansKept.step h.sound hstep
  inSequence := h.inSequence.step hone hlineup h.sound h.accounted hstep
  inLine := h.inLine.step hlineup h.sound h.accounted h.inSequence hstep
  barred := h.barred.step hlineup h.sound h.accounted h.inOrder h.plansKept h.inSequence hstep

/-- With one place, no moves break the sequence. -/
theorem after (hlineup : Lineup rules.units stages) (hone : rules.capacity = 1)
    (h : b.Sequential rules stages) (moves : List Move) :
    (b.after rules moves).Sequential rules stages :=
  after_induction (fun h hstep => h.step hlineup hone hstep) h moves

/-- A unit that has been refused stays refused, whatever moves are made. -/
theorem refused_after (hlineup : Lineup rules.units stages) (hone : rules.capacity = 1)
    (h : b.Sequential rules stages) (hrefused : b.Refused part) (moves : List Move) :
    (b.after rules moves).Refused part := by
  have hboth := after_induction (P := fun b => b.Sequential rules stages ∧ b.Refused part)
    (fun ⟨h, hrefused⟩ hstep => ⟨h.step hlineup hone hstep,
      hrefused.step hlineup h.sound h.accounted hstep⟩) ⟨h, hrefused⟩ moves
  exact hboth.2

/-- When the coordinator turns to a unit, each unit of the segment that stands before it in build
order has a result, is underway, or depends on a unit that is underway or has been refused. -/
theorem exists_delay (hlineup : Lineup rules.units stages) (h : b.Sequential rules stages)
    {id later : String} (hid : (id, b.stage.position) ∈ stages.flatMap Stage.pairs)
    (hlt : rules.units.rank id < rules.units.rank later)
    (hturn : b.TurnsTo (later, b.stage.position)) :
    (id, b.stage.position) ∈ b.settled ∨ (id, b.stage.position) ∈ b.underway ∨
      ∃ cause ∈ b.stage.ids, rules.units.DependsOn id cause ∧
        b.Delays (cause, b.stage.position) := by
  obtain ⟨first, rest, hposition, heq⟩ := hturn
  obtain ⟨rfl, -⟩ := Prod.mk.inj heq
  rcases List.mem_append.1 (h.accounted.perm.mem_iff.2 hid) with hsettled | hrest
  · exact .inl hsettled
  rcases List.mem_append.1 hrest with hunderway | houtstanding
  · exact .inr (.inl hunderway)
  have hlisted := h.inLine _ hposition
  have hbefore : ∀ other ∈ later :: rest, rules.units.rank id < rules.units.rank other := by
    intro other hother
    rcases List.mem_cons.1 hother with rfl | hother
    · exact hlt
    · exact Nat.lt_trans hlt ((List.pairwise_cons.1 hlisted.sorted).1 other hother)
  have hpending : id ∈ b.schedule.pendingIds := by
    rcases List.mem_append.1 houtstanding with hpending | hleft
    · obtain ⟨other, hother, heq⟩ := List.mem_map.1 hpending
      exact (Prod.mk.inj heq).1 ▸ hother
    · obtain ⟨stage, hstage, hmem⟩ := List.mem_flatMap.1 hleft
      have hlater := h.sound.mem_ids_of_mem_ready (h.sound.mem_ready hposition)
      have hposition := h.sound.position_lt hlineup hlater hstage
      exact absurd (Stage.mem_pairs_iff.1 hmem).2 (Nat.ne_of_lt hposition)
  have hnot : id ∉ later :: rest := fun hmem => Nat.lt_irrefl _ (hbefore id hmem)
  obtain ⟨cause, hcause, hdep, hcase⟩ := hlisted.passed (List.cons_ne_nil _ _) id hpending hnot
  refine .inr (.inr ⟨cause, hcause, hdep, hcase.resolve_left fun hmem => ?_⟩)
  exact Nat.lt_asymm hdep.rank_lt (hbefore cause hmem)

/-! ### Builds without refusals -/

/-- When the coordinator turns to a unit and no unit has been refused or is underway, all units
before it have been started. -/
theorem mem_started_of_turnsTo (hlineup : Lineup rules.units stages)
    (h : b.Sequential rules stages) (hturn : b.TurnsTo part)
    (hrefused : ∀ part, ¬ b.Refused part) (hunderway : b.underway = []) {other : String × Nat}
    (hother : other ∈ stages.flatMap Stage.pairs) (hbefore : other.2 < part.2 ∨
      other.2 = part.2 ∧ rules.units.rank other.1 < rules.units.rank part.1) :
    other ∈ b.started := by
  have hsettled : other ∈ b.settled → other ∈ b.started :=
    fun hmem => not_not.1 fun hnot => hrefused other ⟨hmem, hnot⟩
  obtain ⟨id, rest, hposition, rfl⟩ := hturn
  rcases hbefore with hlt | ⟨hsame, hlt⟩
  · exact hsettled (h.sound.settled_of_precedes hlineup h.accounted
      (.inl (h.sound.mem_ready hposition)) hother (.inl hlt))
  · obtain ⟨name, segment⟩ := other
    obtain rfl : segment = b.stage.position := hsame
    rcases h.exists_delay hlineup hother hlt ⟨_, _, hposition, rfl⟩ with hmem | hmem |
      ⟨cause, -, -, hmem | hmem⟩
    · exact hsettled hmem
    · exact h.inSequence.mem_started_of_mem_underway hmem
    · rw [hunderway] at hmem
      cases hmem
    · exact absurd hmem (hrefused _)

/-- If no unit has been refused, and no lane had given its place back before its result was recorded
when the coordinator turned to a unit, then the units have been started in the order of their
segments, and in each segment in build order. -/
theorem started_isPrefix (hlineup : Lineup rules.units stages) (hone : rules.capacity = 1)
    (h : b.Sequential rules stages) (hnil : b.started = []) {moves : List Move}
    (hreleased : ∀ part, ¬ TurnedTo rules b moves part fun moment =>
      ∃ other, moment.HasReleased other)
    (hrefused : ∀ part, ¬ (b.after rules moves).Refused part) :
    (b.after rules moves).started <+: stages.flatMap Stage.pairs := by
  induction moves using List.reverseRecOn with
  | nil => exact hnil ▸ ⟨_, rfl⟩
  | append_singleton moves move ih =>
    have hmoment := h.after hlineup hone moves
    have hnone : ∀ part, ¬ (b.after rules moves).Refused part := by
      intro part hmem
      refine hrefused part ?_
      rw [after_append]
      exact hmoment.refused_after hlineup hone hmem [move]
    have hstart : (b.after rules moves).started <+: stages.flatMap Stage.pairs := by
      refine ih (fun part hturned => hreleased part ?_) hnone
      obtain ⟨earlier, rest, rfl, hturned⟩ := hturned
      exact ⟨earlier, rest ++ [move], List.append_assoc _ _ _, hturned⟩
    rw [after_append]
    show started (next rules (b.after rules moves) move) <+: _
    rcases (grows_started rules) _ _ (step_next rules (b.after rules moves) move) with hsame |
      ⟨part, ⟨hturn, hroom⟩, hnew⟩
    · rw [hsame]
      exact hstart
    have hunderway : (b.after rules moves).underway = [] := by
      refine List.eq_nil_iff_forall_not_mem.2 fun other hother => hreleased part ?_
      exact ⟨moves, [move], rfl, hturn, other,
        hasReleased_of_mem_underway (hone ▸ hroom) hother⟩
    have houtstanding := hturn.mem_outstanding hmoment.sound
    have hnot := hmoment.inSequence.notMem_started hlineup hmoment.accounted houtstanding
    have hmem := hmoment.accounted.perm.mem_iff.1
      (List.mem_append_right _ (List.mem_append_right _ houtstanding))
    obtain ⟨others, hparts⟩ := hstart
    rw [← hparts] at hmem
    rw [hnew, ← hparts, List.prefix_append_right_inj]
    cases others with
    | nil =>
      rw [List.append_nil] at hmem
      exact absurd hmem hnot
    | cons first rest =>
      -- otherwise the first of the units that are left would have been started
      rcases List.mem_cons.1 ((List.mem_append.1 hmem).resolve_left hnot) with rfl | hrest
      · exact ⟨rest, rfl⟩
      have hordered := hlineup.pairwise_pairs
      rw [← hparts, List.pairwise_append, List.pairwise_cons] at hordered
      have hfirst := hmoment.mem_started_of_turnsTo hlineup hturn hnone hunderway
        (hparts ▸ List.mem_append_right _ List.mem_cons_self) (hordered.2.1.1 part hrest)
      have hnodup := hlineup.nodup_pairs
      rw [← hparts, List.nodup_append] at hnodup
      exact absurd rfl (hnodup.2.2 _ hfirst _ List.mem_cons_self)

/-! ### Units that are started or recorded before others -/

section order

variable (hlineup : Lineup rules.units stages) (hone : rules.capacity = 1)
  (h : b.Sequential rules stages) (hnil : b.started = []) {stage : Stage} (hstage : stage ∈ stages)
  {id later : String} (hid : id ∈ stage.ids) (hlater : later ∈ stage.ids)
  (hlt : rules.units.rank id < rules.units.rank later)

include hlineup hone h hstage hid hlater hlt

/-- What holds when the coordinator turns to a unit that stands after another one of its stage. -/
theorem exists_delay_at {earlier : List Move}
    (hturn : (b.after rules earlier).TurnsTo (later, stage.position)) :
    (id, stage.position) ∈ (b.after rules earlier).settled ∨
      (id, stage.position) ∈ (b.after rules earlier).underway ∨
      ∃ cause ∈ stage.ids, rules.units.DependsOn id cause ∧
        (b.after rules earlier).Delays (cause, stage.position) := by
  have hmoment := h.after hlineup hone earlier
  obtain rfl := hturn.stage_eq hlineup hmoment.sound hlater hstage
  have hpart : (id, (b.after rules earlier).stage.position) ∈ stages.flatMap Stage.pairs :=
    List.mem_flatMap.2 ⟨_, hstage, Stage.mem_pairs_iff.2 ⟨hid, rfl⟩⟩
  exact hmoment.exists_delay hlineup hpart hlt hturn

include hnil

/-- If a unit has been started before one that stands before it in build order, then the other one
depends on a unit that had done its work but had no result yet, or whose refusal was tolerated. -/
theorem exists_cause_of_starts {moves : List Move}
    (hstarts : [(later, stage.position), (id, stage.position)].Sublist
      (b.after rules moves).started) :
    TurnedTo rules b moves (later, stage.position) fun moment =>
      ∃ cause ∈ stage.ids, rules.units.DependsOn id cause ∧
        (moment.HasReleased (cause, stage.position) ∨ moment.Refused (cause, stage.position) ∧
          rules.policy = .failNever ∧ stage.LacksPlan cause) := by
  have hend := h.after hlineup hone moves
  have hnodup := hend.inSequence.nodup_started hlineup hend.accounted
  obtain ⟨pre, post, hsplit, hpre⟩ := exists_append_of_pair_sublist hnodup hstarts
  have hmem := hstarts.subset (List.mem_cons_of_mem _ List.mem_cons_self)
  obtain ⟨earlier, rest, rfl, hbefore, hturn, hroom⟩ :=
    (grows_started rules).exists_moment hnil moves hsplit
  have hmoment := h.after hlineup hone earlier
  have hrefusals : ∀ {part}, (b.after rules earlier).Refused part →
      (b.after rules (earlier ++ rest)).Refused part := by
    intro part hrefused
    rw [after_append]
    exact hmoment.refused_after hlineup hone hrefused rest
  have hnot : (id, stage.position) ∉ (b.after rules earlier).started := hbefore ▸ hpre
  refine ⟨earlier, rest, rfl, hturn, ?_⟩
  rcases h.exists_delay_at hlineup hone hstage hid hlater hlt hturn with hsettled | hunderway |
    ⟨cause, hcause, hdep, hunderway | hrefused⟩
  · exact absurd hmem (hrefusals ⟨hsettled, hnot⟩).2
  · exact absurd (hmoment.inSequence.mem_started_of_mem_underway hunderway) hnot
  · exact ⟨cause, hcause, hdep, .inl (hasReleased_of_mem_underway (hone ▸ hroom) hunderway)⟩
  · -- a refusal that is not tolerated would have kept the other unit from being started
    obtain ⟨hpolicy, other, hother, hcause', hposition, hlacks⟩ :=
      (hend.barred.refused _ (hrefusals hrefused)).resolve_right fun hbarred =>
        (hbarred id hdep).2 hmem
    obtain rfl := hlineup.stage_eq hstage hother hcause hcause' hposition
    exact ⟨cause, hcause, hdep, .inr ⟨hrefused, hpolicy, hlacks⟩⟩

/-- If the result of a started unit has been recorded before that of a unit which stands before it
in build order, then the other one depends on a unit that had done its work but had no result yet,
or that had been refused. -/
theorem exists_cause_of_results {moves : List Move}
    (hstarted : (later, stage.position) ∈ (b.after rules moves).started)
    (hresults : [(later, stage.position), (id, stage.position)].Sublist
      (b.after rules moves).settled) :
    TurnedTo rules b moves (later, stage.position) fun moment =>
      ∃ cause ∈ stage.ids, rules.units.DependsOn id cause ∧
        (moment.HasReleased (cause, stage.position) ∨
          moment.Refused (cause, stage.position)) := by
  have hend := h.after hlineup hone moves
  obtain ⟨pre, post, hsplit⟩ := List.append_of_mem hstarted
  obtain ⟨earlier, rest, rfl, hbefore, hturn, hroom⟩ :=
    (grows_started rules).exists_moment hnil moves hsplit
  have hmoment := h.after hlineup hone earlier
  refine ⟨earlier, rest, rfl, hturn, ?_⟩
  rcases h.exists_delay_at hlineup hone hstage hid hlater hlt hturn with hsettled | hunderway |
    ⟨cause, hcause, hdep, hunderway | hrefused⟩
  · -- results that were there then stand before that of the unit which was about to be started
    obtain ⟨new, hnew⟩ := (grows_settled rules).isPrefix_after (b.after rules earlier) rest
    have hnodup := hend.accounted.nodup_settled hlineup.nodup_pairs
    rw [after_append, ← hnew] at hresults hnodup
    have hnot := hturn.notMem_settled hlineup hmoment.sound hmoment.accounted
    have hlate := (List.mem_append.1 (hresults.subset List.mem_cons_self)).resolve_left hnot
    have hother := pair_sublist_append hsettled hlate
    exact absurd (idxOf_lt_idxOf_of_sublist hnodup hother)
      (Nat.lt_asymm (idxOf_lt_idxOf_of_sublist hnodup hresults))
  · -- units that were underway had been started before it, so their results come first
    have hnodup := hend.inSequence.nodup_started hlineup hend.accounted
    have hold := hmoment.inSequence.mem_started_of_mem_underway hunderway
    have hpair : [(id, stage.position), (later, stage.position)].Sublist
        (b.after rules (earlier ++ rest)).started := by
      rw [hsplit, ← hbefore]
      exact pair_sublist_append hold List.mem_cons_self
    have hother := hresults.filter (· ∈ (b.after rules (earlier ++ rest)).started)
    simp only [List.filter_cons, hstarted, hpair.subset List.mem_cons_self, decide_true, if_true,
      List.filter_nil] at hother
    have hreverse := hother.trans hend.inSequence.filter_isPrefix.sublist
    exact absurd (idxOf_lt_idxOf_of_sublist hnodup hpair)
      (Nat.lt_asymm (idxOf_lt_idxOf_of_sublist hnodup hreverse))
  · exact ⟨cause, hcause, hdep, .inl (hasReleased_of_mem_underway (hone ▸ hroom) hunderway)⟩
  · exact ⟨cause, hcause, hdep, .inr hrefused⟩

omit hnil

/-- If the result of a unit that has not been started has been recorded before that of a unit which
stands before it in build order, then the other one was underway, or it depends on a unit that was
so or had been refused. -/
theorem exists_cause_of_refusal (hnil : b.settled = []) {moves : List Move}
    (hnot : (later, stage.position) ∉ (b.after rules moves).started)
    (hresults : [(later, stage.position), (id, stage.position)].Sublist
      (b.after rules moves).settled) :
    TurnedTo rules b moves (later, stage.position) fun moment =>
      (id, stage.position) ∈ moment.underway ∨
        ∃ cause ∈ stage.ids, rules.units.DependsOn id cause ∧
          moment.Delays (cause, stage.position) := by
  have hend := h.after hlineup hone moves
  have hnodup := hend.accounted.nodup_settled hlineup.nodup_pairs
  obtain ⟨pre, post, hsplit, hpre⟩ := exists_append_of_pair_sublist hnodup hresults
  obtain ⟨earlier, rest, rfl, hbefore, hcase⟩ :=
    (grows_settled rules).exists_moment hnil moves hsplit
  have hmoment := h.after hlineup hone earlier
  have hturn : (b.after rules earlier).TurnsTo (later, stage.position) := by
    refine hcase.resolve_right fun hunderway => hnot ?_
    have hold := hmoment.inSequence.mem_started_of_mem_underway hunderway
    rw [after_append]
    exact ((grows_started rules).isPrefix_after _ rest).subset hold
  refine ⟨earlier, rest, rfl, hturn, ?_⟩
  exact (h.exists_delay_at hlineup hone hstage hid hlater hlt hturn).resolve_left (hbefore ▸ hpre)

end order

end Sequential

end BuildRun

namespace Session

open BuildRun

variable (s : Session) (work : Work) (segments : List Segment) (moves : List Move)

/-- A build that starts has started nothing. -/
theorem sequential_start :
    (s.start segments).Sequential (s.rules work) ({} :: s.stages {} 0 segments) where
  sound := s.sound_start work segments
  accounted := s.accounted_start segments
  inOrder := s.inOrder_buildAfter work segments []
  plansKept := s.plansKept_buildAfter work segments []
  inSequence := rfl
  inLine := by
    rintro listed ⟨⟩
  barred := ⟨fun _ hid => absurd hid List.not_mem_nil, fun _ h => absurd h.1 List.not_mem_nil⟩

/-- What a build of one unit at a time has to do with the build order, at every moment.

At most one lane works, and the results of started units are recorded in the order of the starts. If
no unit has been refused, and no lane had given its place back before its result was recorded when
the coordinator turned to a unit, the starts are a walk through the units of all segments in build
order, and so are the results.

Where a unit has been started before one of its segment that stands before it in build order, the
other one depends on a unit that kept it off the list: one whose lane had done its work, or one that
had no plan, for a reason that is none of configuration, under `failNever`. Where its result comes
before that of the other one, it has been started like that or has not been started at all, and the
other one was underway or depends on a unit that was so or had been refused. -/
theorem sequential_build_order (hthreads : s.settings.threads ≤ 1) :
    let rules := s.rules work
    let b := s.buildAfter work segments moves
    b.working.length ≤ 1 ∧
    b.settled.filter (· ∈ b.started) <+: b.started ∧
    ((∀ part, ¬ b.Refused part) →
      (∀ part, ¬ TurnedTo rules (s.start segments) moves part fun moment =>
        ∃ other, moment.HasReleased other) →
      b.started <+: s.parts segments ∧ b.settled <+: s.parts segments) ∧
    ∀ stage ∈ s.stages {} 0 segments, ∀ id ∈ stage.ids, ∀ later ∈ stage.ids,
      s.units.rank id < s.units.rank later →
      ([(later, stage.position), (id, stage.position)].Sublist b.started →
        TurnedTo rules (s.start segments) moves (later, stage.position) fun moment =>
          ∃ cause ∈ stage.ids, s.units.DependsOn id cause ∧
            (moment.HasReleased (cause, stage.position) ∨
              moment.Refused (cause, stage.position) ∧
                s.settings.policy = .failNever ∧ stage.LacksPlan cause)) ∧
      ([(later, stage.position), (id, stage.position)].Sublist b.settled →
        (later, stage.position) ∈ b.started →
        TurnedTo rules (s.start segments) moves (later, stage.position) fun moment =>
          ∃ cause ∈ stage.ids, s.units.DependsOn id cause ∧
            (moment.HasReleased (cause, stage.position) ∨
              moment.Refused (cause, stage.position))) ∧
      ([(later, stage.position), (id, stage.position)].Sublist b.settled →
        (later, stage.position) ∉ b.started →
        TurnedTo rules (s.start segments) moves (later, stage.position) fun moment =>
          (id, stage.position) ∈ moment.underway ∨
            ∃ cause ∈ stage.ids, s.units.DependsOn id cause ∧
              ((cause, stage.position) ∈ moment.underway ∨
                moment.Refused (cause, stage.position))) := by
  intro rules b
  have hlineup := s.lineup segments
  have hone : rules.capacity = 1 := Nat.max_eq_left hthreads
  have hstart := s.sequential_start work segments
  have hend := hstart.after hlineup hone moves
  refine ⟨hend.sound.working_le hone, hend.inSequence.filter_isPrefix, ?_, ?_⟩
  · intro hrefused hreleased
    have hparts := hstart.started_isPrefix hlineup hone rfl hreleased hrefused
    rw [s.flatMap_pairs_eq_parts] at hparts
    have hall : b.settled.filter (· ∈ b.started) = b.settled :=
      List.filter_eq_self.2 fun part hpart =>
        decide_eq_true (not_not.1 fun hnot => hrefused part ⟨hpart, hnot⟩)
    exact ⟨hparts, (hall ▸ hend.inSequence.filter_isPrefix).trans hparts⟩
  · intro stage hmem id hid later hlater hlt
    have hstage : stage ∈ ({} :: s.stages {} 0 segments : List Stage) :=
      List.mem_cons_of_mem _ hmem
    refine ⟨fun hstarts => ?_, fun hresults hstarted => ?_, fun hresults hnot => ?_⟩
    · exact hstart.exists_cause_of_starts hlineup hone rfl hstage hid hlater hlt hstarts
    · exact hstart.exists_cause_of_results hlineup hone rfl hstage hid hlater hlt hstarted hresults
    · exact hstart.exists_cause_of_refusal hlineup hone hstage hid hlater hlt rfl hnot hresults

end Session

namespace Publishing

open BuildRun

/-- A lane that does nothing does nothing outside of the build of its unit. -/
theorem isInner_of_mem_nil : ∀ action ∈ ([] : List Action), action.isInner = true :=
  List.forall_mem_nil _

/-- Lanes that have nothing to do. -/
def idleWork : Work := fun _ _ state _ =>
  { result := .ok (), state, actions := [], isInner_of_mem := isInner_of_mem_nil }

/-- A unit that depends on the one that binds a goal which the plugin of the site does not have. -/
def dependentUnit : BuildUnit where
  id := "app"
  dependencies := [{ unit := "core" }]

/-- A session of these two units and another one. -/
def chain (policy : FailurePolicy) : Session where
  workspace := {
    units := {
      units := [checkedUnit, dependentUnit, { id := "docs" }]
      sorted := [checkedUnit, dependentUnit, { id := "docs" }]
      nodup_ids := by decide
      arranged := ⟨rfl, rfl, rfl, trivial⟩ }
    root := "core"
    contains_root := rfl }
  planner := planner
  settings := { policy }

/-- The stage of a request for the end of the lifecycle. -/
def chainStage : Stage where
  members := [checkedUnit, dependentUnit, { id := "docs" }]
  plans := [("core", .error missing), ("app", .ok ⟨"app", []⟩), ("docs", .ok ⟨"docs", []⟩)]

/-- The request comes to one stage, in which the first unit has no plan. -/
theorem stages_chain (policy : FailurePolicy) :
    (chain policy).stages {} 0 [⟨[.phase "publish"], false⟩] = [chainStage] := by
  cbv

/-- A build of the session after moves. -/
def buildChain (policy : FailurePolicy) (moves : List Move) : BuildRun :=
  (chain policy).buildAfter idleWork [⟨[.phase "publish"], false⟩] moves

/-- The moves of a build in which the coordinator waits for each lane. -/
def inTurn : List Move :=
  (List.replicate 5 Move.coordinate ++ [Move.work 0]) ++
    ((List.replicate 4 Move.coordinate ++ [Move.work 0]) ++ List.replicate 2 Move.coordinate)

/-- The unit that depends on the one without a plan is started after a unit that comes later in
build order. -/
theorem reports_chain : (buildChain .failNever inTurn).isOver = true ∧
    (buildChain .failNever inTurn).started = [("docs", 0), ("app", 0)] ∧
    (buildChain .failNever inTurn).settled = [("core", 0), ("docs", 0), ("app", 0)] := by
  unfold buildChain Session.buildAfter Session.start
  rw [stages_chain]
  decide +kernel

/-- In build order the dependent unit comes before the other one. -/
theorem rank_chain (policy : FailurePolicy) :
    (chain policy).units.rank "app" < (chain policy).units.rank "docs" := by
  cases policy <;> decide +kernel

/-- A unit is started before one that stands before it in build order, and its result comes first:
when the list was made, the other one still had to wait for the unit that has no plan. Where that
failure stops the build, both are skipped in this order. -/
theorem later_unit_goes_first :
    (∀ policy, (chain policy).settings.threads = 1 ∧
      (chain policy).units.rank "app" < (chain policy).units.rank "docs") ∧
    ((buildChain .failNever inTurn).isOver = true ∧
      (buildChain .failNever inTurn).started = [("docs", 0), ("app", 0)] ∧
      (buildChain .failNever inTurn).settled = [("core", 0), ("docs", 0), ("app", 0)]) ∧
    (buildChain .failFast inTurn).isOver = true ∧
    (buildChain .failFast inTurn).started = [] ∧
    (buildChain .failFast inTurn).settled = [("core", 0), ("docs", 0), ("app", 0)] := by
  refine ⟨fun policy => ⟨rfl, rank_chain policy⟩, reports_chain, ?_⟩
  unfold buildChain Session.buildAfter Session.start
  rw [stages_chain]
  decide +kernel

/-- A lane that is quicker than the coordinator has the same effect without any failure. -/
example : ((chain .failFast).buildAfter idleWork [⟨[], false⟩]
    ((List.replicate 3 Move.coordinate ++ [Move.work 0, Move.release 0]) ++
      ((List.replicate 5 Move.coordinate ++ [Move.work 0]) ++
        List.replicate 4 Move.coordinate))).started = [("core", 0), ("docs", 0), ("app", 0)] := by
  decide +kernel

/-- What the build order has to do with a build of the session, and with one of a pair in which no
unit is refused. -/
theorem sequential_build_of_chain_and_pair :
    (chain .failNever).settings.threads ≤ 1 ∧
    TurnedTo ((chain .failNever).rules idleWork)
      ((chain .failNever).start [⟨[.phase "publish"], false⟩]) inTurn ("docs", 0)
      (fun moment => ∃ cause ∈ chainStage.ids, (chain .failNever).units.DependsOn "app" cause ∧
        (moment.HasReleased (cause, 0) ∨ moment.Refused (cause, 0) ∧
          (chain .failNever).settings.policy = .failNever ∧ chainStage.LacksPlan cause)) ∧
    (Session.ofPair .failFast).settings.threads ≤ 1 ∧
    ((Session.ofPair .failFast).buildAfter idleWork [⟨[], false⟩] inTurn).started <+:
      (Session.ofPair .failFast).parts [⟨[], false⟩] := by
  have hstage : chainStage ∈ (chain .failNever).stages {} 0 [⟨[.phase "publish"], false⟩] := by
    rw [stages_chain]
    exact List.mem_singleton_self _
  obtain ⟨-, -, -, hchain⟩ := (chain .failNever).sequential_build_order idleWork
    [⟨[.phase "publish"], false⟩] inTurn (by decide)
  have hreason := (hchain chainStage hstage "app" (by decide) "docs" (by decide)
    (rank_chain .failNever)).1 (reports_chain.2.1 ▸ .refl _)
  obtain ⟨-, -, hpair, -⟩ := (Session.ofPair .failFast).sequential_build_order idleWork
    [⟨[], false⟩] inTurn (by decide)
  refine ⟨by decide, hreason, by decide, (hpair ?_ ?_).1⟩
  · have hall : ∀ part ∈ ((Session.ofPair .failFast).buildAfter idleWork [⟨[], false⟩]
        inTurn).settled, part ∈ ((Session.ofPair .failFast).buildAfter idleWork [⟨[], false⟩]
        inTurn).started := by
      decide +kernel
    exact fun part hrefused => hrefused.2 (hall part hrefused.1)
  · have hnone : ∀ n ≤ inTurn.length, ∀ entry ∈ ((Session.ofPair .failFast).buildAfter idleWork
        [⟨[], false⟩] (inTurn.take n)).delivered, entry.2 = false := by
      decide +kernel
    rintro part ⟨earlier, rest, hsplit, -, other, lane, hlane, -⟩
    have htake : inTurn.take earlier.length = earlier := by
      rw [hsplit, List.take_left]
    have hle : earlier.length ≤ inTurn.length := by
      rw [hsplit, List.length_append]
      exact Nat.le_add_right _ _
    have hflag := hnone earlier.length hle (lane, true)
    rw [htake] at hflag
    cases hflag hlane

end Publishing

end PhasedBuild
