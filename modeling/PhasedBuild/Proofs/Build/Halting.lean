import PhasedBuild.Proofs.Build.Accounting

/-!
# Builds that have been stopped

A failure of configuration stops a build, and under `failFast` every failure does. From then on the
results are settled: `BuildRun.foretold` lists them, and no step changes more than their order.

* `Heeded`: a build whose summary tells of such a failure has been stopped.
* `windsDown_step`: a step of a build that has been stopped keeps what is foretold and starts no
  unit.
* `Session.halted_build_starts_nothing`: what a failure that stops the build means for all units.
-/

namespace PhasedBuild

/-- A failure that stops a build under a policy. -/
def UnitResult.Stops (policy : FailurePolicy) (r : UnitResult) : Prop :=
  r.outcome = .failed ∧ (r.errorKind = some .configuration ∨ policy = .failFast)

/-- The start of a unit in a segment. -/
def Entry.IsStart (e : Entry) : Prop :=
  ∃ unit segment, e.action = .reported (.ofUnit unit segment .started)

/-! ### What a failure does to the status -/

namespace BuildStatus

variable {units : UnitGraph} {policy : FailurePolicy} {status : BuildStatus} {id : String}
  {ending : Ending}

/-- A build that has been stopped stays stopped. -/
theorem halted_after_of_halted (h : status.halted = true) :
    (status.after units policy id ending).halted = true := by
  cases ending with
  | succeeded _ _ => exact h
  | skipped _ => exact h
  | failed error _ _ => cases policy <;> by_cases he : error.isConfiguration = true <;>
      simp [BuildStatus.after, halt, blacklist, he, h]

/-- A failure that stops a build under its policy stops it as soon as it is noted. -/
theorem halted_after_of_stops {segment : Nat} (h : (ending.result id segment).Stops policy) :
    (status.after units policy id ending).halted = true := by
  obtain ⟨hfailed, hcause⟩ := h
  cases ending with
  | succeeded _ _ => cases hfailed
  | skipped _ => cases hfailed
  | failed error _ _ =>
    rcases hcause with hkind | rfl
    · have he : error.isConfiguration = true := by
        have hkind' : error.kind = .configuration := Option.some.inj hkind
        rw [BuildError.isConfiguration, hkind']
        rfl
      cases policy <;> simp [BuildStatus.after, halt, blacklist, he]
    · simp [BuildStatus.after, halt, blacklist]

/-- When a build has been stopped, each unit that has not been started is skipped for this
reason. -/
theorem skipReason?_of_halted (h : status.halted = true) :
    status.skipReason? id = some .halted := by
  rw [skipReason?, if_pos h]

end BuildStatus

namespace BuildRun

variable {rules : BuildRules} {stages : List Stage} {b b' : BuildRun}

/-- Failures that stop a build have stopped it. -/
def Heeded (rules : BuildRules) (b : BuildRun) : Prop :=
  ∀ result ∈ b.summary.results, result.Stops rules.policy → b.status.halted = true

/-- When a unit comes to its end, its failure is heeded with those before. -/
theorem Heeded.close (h : b.Heeded rules) (id : String) (ending : Ending) :
    (b.close rules id ending).Heeded rules := by
  intro result hresult hstops
  rcases List.mem_append.1 hresult with hold | hnew
  · exact BuildStatus.halted_after_of_halted (h result hold hstops)
  · obtain rfl := List.mem_singleton.1 hnew
    exact BuildStatus.halted_after_of_stops hstops

/-- No step of a build leaves a failure unheeded. -/
theorem Heeded.step (h : b.Heeded rules) (hstep : Step rules b b') : b'.Heeded rules := by
  cases hstep with
  | idle => exact h
  | advance hstep =>
    cases hstep with
    | onward _ => exact h
    | refuse _ _ => exact h.close _ _
    | start _ _ _ _ => exact h
    | record _ _ => exact h.close _ _
    | enter _ _ => exact h
  | act _ _ => exact h
  | deliver _ _ _ => exact h
  | release _ => exact h

/-! ### What is foretold -/

/-- The results of a build that has been stopped: those that it has, those that the active lanes
come to, and that all other units are skipped. -/
def foretold (b : BuildRun) : List UnitResult :=
  b.resultsWith (b.outstanding.map fun part => .skip part.1 part.2 SkipReason.halted.message)

/-- What a build that has been stopped comes to: it stays stopped, the same results are foretold,
and no unit has been started. -/
structure WindsDown (b b' : BuildRun) : Prop where
  halted : b'.status.halted = true
  perm : b'.foretold.Perm b.foretold
  trace : ∃ new, b'.trace = b.trace ++ new ∧ ∀ entry ∈ new, ¬ entry.IsStart

/-- A build that has been stopped has wound down to itself. -/
theorem WindsDown.refl (hhalted : b.status.halted = true) : b.WindsDown b :=
  ⟨hhalted, .refl _, [], (List.append_nil _).symm, fun _ h => absurd h List.not_mem_nil⟩

/-- Winding down may be looked at in two parts. -/
theorem WindsDown.trans {b'' : BuildRun} (h : b.WindsDown b') (h' : b'.WindsDown b'') :
    b.WindsDown b'' := by
  obtain ⟨new, htrace, hnew⟩ := h.trace
  obtain ⟨new', htrace', hnew'⟩ := h'.trace
  refine ⟨h'.halted, h'.perm.trans h.perm, new ++ new', ?_, ?_⟩
  · rw [htrace', htrace, List.append_assoc]
  · intro entry hentry
    rcases List.mem_append.1 hentry with hfirst | hsecond
    · exact hnew entry hfirst
    · exact hnew' entry hsecond

/-- Closing a unit is no start. -/
theorem trace_close (rules : BuildRules) (b : BuildRun) (id : String) (ending : Ending) :
    ∃ new, (b.close rules id ending).trace = b.trace ++ new ∧ ∀ entry ∈ new, ¬ entry.IsStart := by
  refine ⟨_, rfl, ?_⟩
  rintro entry hentry ⟨unit, segment, haction⟩
  obtain rfl := List.mem_singleton.1 hentry
  have hchange := (Event.ofUnit.inj (Action.reported.inj haction)).2.2
  cases ending <;> cases hchange

/-- A step of the coordinator skips one more unit, records a result or goes on, and starts
nothing. -/
theorem windsDown_advance (h : b.Sound rules stages) (hhalted : b.status.halted = true)
    (hstep : Advance rules b b') : b.WindsDown b' := by
  have hnone : ∀ id, b.status.skipReason? id ≠ none := by
    intro id hskip
    rw [BuildStatus.skipReason?_of_halted hhalted] at hskip
    cases hskip
  cases hstep with
  | onward _ => exact ⟨hhalted, .refl _, (WindsDown.refl hhalted).trace⟩
  | @refuse id rest ending plans hposition hrefusal =>
    -- the only reason to refuse a unit is now that the build has been stopped
    have hending : ending = .skipped .halted := by
      cases hrefusal with
      | skip hskip =>
        rw [BuildStatus.skipReason?_of_halted hhalted] at hskip
        rw [Option.some.inj hskip]
      | unplanned hskip _ => exact absurd hskip (hnone id)
    refine ⟨BuildStatus.halted_after_of_halted hhalted, ?_, trace_close rules b id ending⟩
    subst hending
    have hperm := h.outstanding_perm_mark hposition (Ending.skipped .halted).status_ne_pending
    exact resultsWith_refuse _ _ (hperm.map
      fun part => UnitResult.skip part.1 part.2 SkipReason.halted.message)
  | start _ hskip _ _ => exact absurd hskip (hnone _)
  | @record lane _ delivered hposition hdelivered =>
    refine ⟨BuildStatus.halted_after_of_halted hhalted, ?_,
      trace_close rules b lane.unit lane.ending⟩
    rw [foretold, h.outstanding_record hdelivered]
    exact resultsWith_record hdelivered _
  | @enter stage rest hposition hrest =>
    refine ⟨hhalted, .of_eq ?_, (WindsDown.refl hhalted).trace⟩
    rw [foretold, h.outstanding_enter hposition hrest]
    exact h.resultsWith_enter hposition _ _ _

/-- Whatever happens to a build that has been stopped, the same results are foretold, and no unit is
started. -/
theorem windsDown_step (h : b.Sound rules stages) (hhalted : b.status.halted = true)
    (hstep : Step rules b b') : b.WindsDown b' := by
  cases hstep with
  | idle => exact .refl hhalted
  | advance hstep => exact windsDown_advance h hhalted hstep
  | @act pre post lane action hworking hnext =>
    refine ⟨hhalted, .of_eq (resultsWith_act action hworking _), _, rfl, ?_⟩
    rintro entry hentry ⟨unit, segment, haction⟩
    obtain rfl := List.mem_singleton.1 hentry
    have hinner := Lane.isInner_of_next? hnext
    rw [show action = .reported (.ofUnit unit segment .started) from haction] at hinner
    cases hinner
  | deliver hworking _ _ =>
    exact ⟨hhalted, resultsWith_deliver hworking _, (WindsDown.refl hhalted).trace⟩
  | release hdelivered =>
    exact ⟨hhalted, .of_eq (resultsWith_release hdelivered _), (WindsDown.refl hhalted).trace⟩

/-- Whatever moves follow, a build that has been stopped winds down. -/
theorem windsDown_after (hlineup : Lineup rules.units stages) (h : b.Sound rules stages)
    (hhalted : b.status.halted = true) (moves : List Move) : b.WindsDown (b.after rules moves) := by
  induction moves generalizing b with
  | nil => exact .refl hhalted
  | cons move moves ih =>
    have hstep := step_next rules b move
    have hfirst := windsDown_step h hhalted hstep
    exact hfirst.trans (ih (h.step hlineup hstep) hfirst.halted)

end BuildRun

namespace Session

open BuildRun

variable (s : Session) (work : Work) (segments : List Segment)

/-- At every moment of a build, failures that stop it have stopped it. -/
theorem heeded_buildAfter (moves : List Move) :
    (s.buildAfter work segments moves).Heeded (s.rules work) :=
  after_induction (fun hb hstep => Heeded.step hb hstep)
    (fun _ hresult => absurd hresult List.not_mem_nil) moves

/-- Once a failure that stops the build has been recorded, no unit is started any more, in whatever
order the build goes on. When it is over, the results are those that there were, the results of the
lanes that were active, as their own work has come out, and for every other unit of every segment
that it has been skipped because the build had been stopped. -/
theorem halted_build_starts_nothing (moves later : List Move) {result : UnitResult}
    (hresult : result ∈ (s.buildAfter work segments moves).summary.results)
    (hstops : result.Stops s.settings.policy) :
    let b := s.buildAfter work segments moves
    let b' := s.buildAfter work segments (moves ++ later)
    (∃ new, b'.trace = b.trace ++ new ∧ ∀ entry ∈ new, ¬ entry.IsStart) ∧
    (b'.isOver = true → b'.summary.results.Perm (b.summary.results ++
      (b.active.map (fun lane => lane.ending.result lane.unit b.stage.position) ++
        b.outstanding.map fun part => .skip part.1 part.2 SkipReason.halted.message))) ∧
    ∀ part, part ∈ b.outstanding ↔
      part ∈ s.parts segments ∧ part ∉ b.settled ∧ part ∉ b.underway := by
  intro b b'
  have hlineup := s.lineup segments
  have hsound := s.sound_buildAfter work segments moves
  have hhalted := s.heeded_buildAfter work segments moves result hresult hstops
  have hdown : b.WindsDown b' := by
    rw [show b' = b.after (s.rules work) later from after_append _ _ _ _]
    exact windsDown_after hlineup hsound hhalted later
  refine ⟨hdown.trace, ?_, ?_⟩
  · intro hover
    obtain ⟨hunderway, houtstanding⟩ :=
      (s.sound_buildAfter work segments (moves ++ later)).outstanding_of_isOver hover
    have hforetold : b'.foretold = b'.summary.results := by
      rw [foretold, resultsWith, houtstanding, List.map_eq_nil_iff.1 hunderway]
      exact List.append_nil _
    exact hforetold ▸ hdown.perm
  · exact s.mem_outstanding_iff work segments moves

/-- A build of a pair under `failFast` whose first unit has failed, after more moves. -/
def haltedPair (later : List Move) : BuildRun :=
  let work : Work := fun _ id state _ => .failed (Fault.failedStep "check" id []) state
  (ofPair .failFast).buildAfter work [⟨[], false⟩]
    ([.coordinate, .coordinate, .coordinate, .coordinate, .work 0, .coordinate] ++ later)

/-- In the build of a pair whose first unit has failed the second one is skipped. -/
theorem halted_build_of_pair :
    (∃ new, (haltedPair (.replicate 4 .coordinate)).trace = (haltedPair []).trace ++ new ∧
      ∀ entry ∈ new, ¬ entry.IsStart) ∧
    (haltedPair (.replicate 4 .coordinate)).summary.results.Perm
      [.failure "core" 0 (Fault.failedStep "check" "core" []) 0 0 none,
        .skip "app" 0 SkipReason.halted.message] := by
  have hfailed : (haltedPair []).summary.results =
      [.failure "core" 0 (Fault.failedStep "check" "core" []) 0 0 none] := by
    decide +kernel
  have hover : (haltedPair (.replicate 4 .coordinate)).isOver = true := by
    decide +kernel
  obtain ⟨htrace, hresults, -⟩ := (ofPair .failFast).halted_build_starts_nothing _
    [⟨[], false⟩] [.coordinate, .coordinate, .coordinate, .coordinate, .work 0, .coordinate]
    (.replicate 4 .coordinate) (hfailed ▸ List.mem_singleton_self _) ⟨rfl, .inr rfl⟩
  exact ⟨htrace, hresults hover⟩

end Session

end PhasedBuild
