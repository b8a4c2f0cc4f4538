import Mathlib.Data.List.Induction
import PhasedBuild.Proofs.Build.Accounting

/-!
# Starts and results

What a build notes of its units grows by one entry at a time.

* `Step.reports`: a step starts a unit, refuses one, records the result of one, or does nothing of
  the kind.
* `Grows.exists_moment`: every entry of such a list goes back to a moment of the build at which the
  list was what stands before the entry.
* `InSequence`: if only one lane has a place at a time, results are recorded in the order of the
  starts.
-/

namespace PhasedBuild

/-- The unit in a segment that an action reports the start of. -/
def Action.start? : Action → Option (String × Nat)
  | .reported (.ofUnit unit segment .started) => some (unit, segment)
  | _ => none

/-- Nothing that is done inside the build of a unit is reported as its start. -/
theorem Action.start?_of_isInner {action : Action} (h : action.isInner = true) :
    action.start? = none := by
  cases action with
  | reported event =>
    cases event with
    | ofUnit _ _ _ => cases h
    | _ => rfl
  | _ => rfl

/-- The report of the end of a unit is not that of a start. -/
@[simp] theorem Action.start?_ending (unit : String) (segment : Nat) (ending : Ending) :
    Action.start? (.reported (.ofUnit unit segment ending.change)) = none := by
  cases ending <;> rfl

namespace BuildRun

variable {rules : BuildRules} {stages : List Stage} {b b' : BuildRun} {part : String × Nat}

/-! ### Starts and results -/

/-- The units that have been started, each with the segment, in the order of their starts. -/
def started (b : BuildRun) : List (String × Nat) :=
  b.trace.filterMap (·.action.start?)

/-- A unit has come to its end in a segment without being started. -/
def Refused (b : BuildRun) (part : String × Nat) : Prop :=
  part ∈ b.settled ∧ part ∉ b.started

/-- The coordinator turns to a unit in a segment. -/
def TurnsTo (b : BuildRun) (part : String × Nat) : Prop :=
  ∃ id rest, b.position = .walking (id :: rest) ∧ part = (id, b.stage.position)

/-- A unit that comes to its end is not started by it. -/
@[simp] theorem started_close (rules : BuildRules) (b : BuildRun) (id : String) (ending : Ending) :
    (b.close rules id ending).started = b.started := by
  simp [started, close, note]

/-- A unit that comes to its end is the last one that has. -/
@[simp] theorem settled_close (rules : BuildRules) (b : BuildRun) (id : String) (ending : Ending) :
    (b.close rules id ending).settled = b.settled ++ [(id, b.stage.position)] := by
  simp [settled, close, note, BuildSummary.add, UnitResult.key]

/-- A unit that is started is the last one that has been. -/
@[simp] theorem started_start (rules : BuildRules) (b : BuildRun) (id : String)
    (plan : ExecutionPlan) :
    (b.start rules id plan).started = b.started ++ [(id, b.stage.position)] := by
  simp [started, start, note, Action.start?]

/-- What a lane does starts no unit. -/
theorem started_act {lane : Lane} {action : Action} (hnext : lane.next? = some action)
    (working : List Lane) :
    started { b.note lane.unit action with working } = b.started := by
  simp [started, note, Action.start?_of_isInner (Lane.isInner_of_next? hnext)]

/-- What a step adds to the starts and to the results. -/
inductive Reports (rules : BuildRules) (b b' : BuildRun) : Prop
  | nothing (hstarted : b'.started = b.started) (hsettled : b'.settled = b.settled)
  | start (part : String × Nat) (hturn : b.TurnsTo part) (hroom : b.occupied < rules.capacity)
    (hstarted : b'.started = b.started ++ [part]) (hsettled : b'.settled = b.settled)
  | refuse (part : String × Nat) (hturn : b.TurnsTo part)
    (hstarted : b'.started = b.started) (hsettled : b'.settled = b.settled ++ [part])
  | record (part : String × Nat) (hunderway : part ∈ b.underway)
    (hstarted : b'.started = b.started) (hsettled : b'.settled = b.settled ++ [part])

/-- Every step of a build reports what it adds to the starts and to the results. -/
theorem Step.reports (hstep : Step rules b b') : Reports rules b b' := by
  cases hstep with
  | idle => exact .nothing rfl rfl
  | advance hstep =>
    cases hstep with
    | onward _ => exact .nothing rfl rfl
    | refuse hposition _ =>
      exact .refuse _ ⟨_, _, hposition, rfl⟩ (started_close rules b _ _) (settled_close rules b _ _)
    | @start id _ plan hposition _ _ hroom =>
      exact .start _ ⟨_, _, hposition, rfl⟩ hroom (started_start rules b id plan) rfl
    | @record lane _ delivered _ hdelivered =>
      have hlane := mem_active_of_delivered hdelivered
      exact .record _ (List.mem_map.2 ⟨lane, hlane, rfl⟩)
        (started_close rules { b with delivered } _ _)
        (settled_close rules { b with delivered } _ _)
    | enter _ _ => exact .nothing rfl rfl
  | act _ hnext => exact .nothing (started_act hnext _) rfl
  | deliver _ _ _ => exact .nothing rfl rfl
  | release _ => exact .nothing rfl rfl

/-- The coordinator turns to units that are outstanding. -/
theorem TurnsTo.mem_outstanding (hturn : b.TurnsTo part) (h : b.Sound rules stages) :
    part ∈ b.outstanding := by
  obtain ⟨id, rest, hposition, rfl⟩ := hturn
  have hpending := h.mem_pendingIds_of_mem_ready (h.mem_ready hposition)
  exact List.mem_append_left _ (List.mem_map_of_mem hpending)

/-- The coordinator turns to a part only while it has no result. -/
theorem TurnsTo.notMem_settled (hturn : b.TurnsTo part) (hlineup : Lineup rules.units stages)
    (hsound : b.Sound rules stages) (haccounted : b.Accounted stages) : part ∉ b.settled :=
  haccounted.notMem_settled hlineup.nodup_pairs
    (List.mem_append_right _ (hturn.mem_outstanding hsound))

/-- A unit that has been refused has been so for good. -/
theorem Refused.step (h : b.Refused part) (hlineup : Lineup rules.units stages)
    (hsound : b.Sound rules stages) (haccounted : b.Accounted stages) (hstep : Step rules b b') :
    b'.Refused part := by
  obtain ⟨hsettled, hnot⟩ := h
  rcases hstep.reports with ⟨hs, hr⟩ | ⟨other, hturn, -, hs, hr⟩ | ⟨other, -, hs, hr⟩ |
    ⟨other, -, hs, hr⟩
  · exact ⟨hr ▸ hsettled, hs ▸ hnot⟩
  · refine ⟨hr ▸ hsettled, ?_⟩
    rw [hs, List.mem_append, List.mem_singleton]
    rintro (hold | rfl)
    · exact hnot hold
    · exact hturn.notMem_settled hlineup hsound haccounted hsettled
  · exact ⟨hr ▸ List.mem_append_left _ hsettled, hs ▸ hnot⟩
  · exact ⟨hr ▸ List.mem_append_left _ hsettled, hs ▸ hnot⟩

/-! ### Moments -/

/-- A list that a build keeps grows by one entry at a time, and an entry is added only if it has to
do with the build as it is then. -/
def Grows {α : Type} (rules : BuildRules) (f : BuildRun → List α) (P : BuildRun → α → Prop) :
    Prop :=
  ∀ b b', Step rules b b' → f b' = f b ∨ ∃ x, P b x ∧ f b' = f b ++ [x]

namespace Grows

variable {α : Type} {f : BuildRun → List α} {P : BuildRun → α → Prop}

/-- What a list that grows has at some moment it has at every later one, in the same places. -/
theorem isPrefix_after (h : Grows rules f P) (b : BuildRun) (moves : List Move) :
    f b <+: f (b.after rules moves) := by
  refine after_induction (P := fun b' => f b <+: f b') (fun hold hstep => ?_)
    (List.prefix_refl _) moves
  rcases h _ _ hstep with heq | ⟨x, -, heq⟩
  · exact heq ▸ hold
  · exact heq ▸ hold.trans (List.prefix_append _ _)

/-- Each entry has been added at a moment when the list was what stands before it. -/
theorem exists_moment (h : Grows rules f P) (hnil : f b = []) (moves : List Move)
    {pre post : List α} {x : α} (hsplit : f (b.after rules moves) = pre ++ x :: post) :
    ∃ earlier rest, moves = earlier ++ rest ∧ f (b.after rules earlier) = pre ∧
      P (b.after rules earlier) x := by
  induction moves using List.reverseRecOn generalizing post with
  | nil =>
    rw [after_nil, hnil] at hsplit
    exact absurd hsplit.symm (List.append_ne_nil_of_right_ne_nil _ (List.cons_ne_nil _ _))
  | append_singleton moves move ih =>
    have hstep := step_next rules (b.after rules moves) move
    have hlater : ∀ post, f (b.after rules moves) = pre ++ x :: post →
        ∃ earlier rest, moves ++ [move] = earlier ++ rest ∧ f (b.after rules earlier) = pre ∧
          P (b.after rules earlier) x := by
      intro post hsplit
      obtain ⟨earlier, rest, rfl, hmoment⟩ := ih hsplit
      exact ⟨earlier, rest ++ [move], List.append_assoc _ _ _, hmoment⟩
    rw [after_append] at hsplit
    rcases h _ _ hstep with heq | ⟨y, hy, heq⟩
    · exact hlater post (heq ▸ hsplit)
    · have hall : f (b.after rules moves) ++ [y] = pre ++ x :: post := heq ▸ hsplit
      rcases List.eq_nil_or_concat' post with rfl | ⟨post, last, rfl⟩
      · obtain ⟨hpre, hlast⟩ := List.append_inj' hall rfl
        obtain rfl := List.singleton_inj.1 hlast
        exact ⟨moves, [move], rfl, hpre, hy⟩
      · rw [← List.cons_append, ← List.append_assoc] at hall
        exact hlater post (List.append_inj' hall rfl).1

end Grows

/-- The list of the units that have been started grows by the one to which the coordinator has
turned, and only if there is room. -/
theorem grows_started (rules : BuildRules) :
    Grows rules started fun b part => b.TurnsTo part ∧ b.occupied < rules.capacity := by
  intro b b' hstep
  rcases hstep.reports with ⟨hs, -⟩ | ⟨part, hturn, hroom, hs, -⟩ | ⟨-, -, hs, -⟩ |
    ⟨-, -, hs, -⟩
  · exact .inl hs
  · exact .inr ⟨part, ⟨hturn, hroom⟩, hs⟩
  · exact .inl hs
  · exact .inl hs

/-- The list of the units that have a result grows by one to which the coordinator has turned or one
that was underway. -/
theorem grows_settled (rules : BuildRules) :
    Grows rules settled fun b part => b.TurnsTo part ∨ part ∈ b.underway := by
  intro b b' hstep
  rcases hstep.reports with ⟨-, hr⟩ | ⟨-, -, -, -, hr⟩ | ⟨part, hturn, -, hr⟩ |
    ⟨part, hunderway, -, hr⟩
  · exact .inl hr
  · exact .inl hr
  · exact .inr ⟨part, .inl hturn, hr⟩
  · exact .inr ⟨part, .inr hunderway, hr⟩

/-! ### One lane at a time -/

/-- With one place, one lane at most is at work. -/
theorem Sound.working_le (h : b.Sound rules stages) (hone : rules.capacity = 1) :
    b.working.length ≤ 1 := by
  have hoccupied := h.occupied_le
  unfold occupied at hoccupied
  omega

/-- The units that have been started are, in the order of their starts, those that have a result
and have not been refused, and then those that a lane is active on. -/
def InSequence (b : BuildRun) : Prop :=
  b.started = b.settled.filter (· ∈ b.started) ++
    (b.delivered.map (·.1) ++ b.working).map fun lane => (lane.unit, b.stage.position)

namespace InSequence

/-- A unit that is underway has been started. -/
theorem mem_started_of_mem_underway (h : b.InSequence) (hpart : part ∈ b.underway) :
    part ∈ b.started := by
  rw [h]
  refine List.mem_append_right _ ?_
  simpa [underway, active, or_comm] using hpart

/-- A unit that has been started has a result or is underway. -/
theorem mem_of_mem_started (h : b.InSequence) (hpart : part ∈ b.started) :
    part ∈ b.settled ∨ part ∈ b.underway := by
  rw [h] at hpart
  rcases List.mem_append.1 hpart with hsettled | hunderway
  · exact .inl (List.mem_filter.1 hsettled).1
  · right
    simpa [underway, active, or_comm] using hunderway

/-- The units that have come to a result after a start have done so in the order of their starts. -/
theorem filter_isPrefix (h : b.InSequence) : b.settled.filter (· ∈ b.started) <+: b.started :=
  ⟨_, h.symm⟩

/-- A unit whose turn is still to come has not been started. -/
theorem notMem_started (h : b.InSequence) (hlineup : Lineup rules.units stages)
    (haccounted : b.Accounted stages) (hpart : part ∈ b.outstanding) : part ∉ b.started := by
  intro hstarted
  rcases h.mem_of_mem_started hstarted with hsettled | hunderway
  · exact haccounted.notMem_settled hlineup.nodup_pairs (List.mem_append_right _ hpart) hsettled
  · exact haccounted.notMem_underway hlineup.nodup_pairs hpart hunderway

/-- No unit is started twice in a segment. -/
theorem nodup_started (h : b.InSequence) (hlineup : Lineup rules.units stages)
    (haccounted : b.Accounted stages) : b.started.Nodup := by
  have hnodup := haccounted.perm.nodup_iff.2 hlineup.nodup_pairs
  rw [← List.append_assoc] at hnodup
  have hunderway : (b.delivered.map (·.1) ++ b.working).map
      (fun lane => (lane.unit, b.stage.position)) |>.Perm b.underway :=
    List.perm_append_comm.map _
  rw [h]
  refine ((hunderway.append_left _).nodup_iff).2 ?_
  exact (List.nodup_append.1 hnodup).1.sublist (List.filter_sublist.append_right _)

/-- What leaves the starts, their results and the units of the lanes as they are keeps the order. -/
theorem of_eq (h : b.InSequence) (hstarted : b'.started = b.started)
    (hsettled : b'.settled.filter (· ∈ b.started) = b.settled.filter (· ∈ b.started))
    (hlanes : (b'.delivered.map (·.1) ++ b'.working).map
        (fun lane => (lane.unit, b'.stage.position)) =
      (b.delivered.map (·.1) ++ b.working).map fun lane => (lane.unit, b.stage.position)) :
    b'.InSequence := by
  rw [InSequence, hstarted, hsettled, hlanes]
  exact h

/-- A unit that is refused has a result but was not started, so the sequence is as before. -/
theorem refuse (h : b.InSequence) {id : String} {ending : Ending}
    (hnot : (id, b.stage.position) ∉ b.started) (plans : UnitPlans) (position : Position) :
    InSequence { b.close rules id ending with plans, position } := by
  refine h.of_eq (started_close rules b id ending) ?_ rfl
  rw [show settled { b.close rules id ending with plans, position } = _ from
    settled_close rules b id ending, List.filter_append, List.filter_cons_of_neg (by simpa)]
  exact List.append_nil _

/-- A unit that is started comes last, and it is underway. -/
theorem start (h : b.InSequence) {id : String} (hnot : (id, b.stage.position) ∉ b.settled)
    (plan : ExecutionPlan) (position : Position) :
    InSequence { b.start rules id plan with position } := by
  have hstarted : started { b.start rules id plan with position } = _ :=
    started_start rules b id plan
  have hfilter : b.settled.filter (· ∈ b.started ++ [(id, b.stage.position)]) =
      b.settled.filter (· ∈ b.started) := by
    refine List.filter_congr fun other hother => ?_
    have hne : other ≠ (id, b.stage.position) := by
      rintro rfl
      exact hnot hother
    simp [hne]
  rw [InSequence, hstarted]
  show _ = b.settled.filter _ ++ (b.delivered.map (·.1) ++
    (b.working ++ [b.laneFor rules id plan])).map fun lane => (lane.unit, b.stage.position)
  rw [hfilter, ← List.append_assoc, List.map_append, ← List.append_assoc, ← h]
  rfl

/-- With one place, the result that is recorded is that of the first unit underway. -/
theorem record (h : b.InSequence) {lane : Lane} {released : Bool}
    {delivered : List (Lane × Bool)} (hdelivered : b.delivered = (lane, released) :: delivered) :
    ({ b with delivered }.record rules lane).InSequence := by
  have hlane := mem_active_of_delivered hdelivered
  have hmem := h.mem_started_of_mem_underway (List.mem_map.2 ⟨lane, hlane, rfl⟩)
  have hstarted : ({ b with delivered }.record rules lane).started = b.started :=
    started_close rules { b with delivered } _ _
  have hsettled : ({ b with delivered }.record rules lane).settled = _ :=
    settled_close rules { b with delivered } _ _
  have hfilter : [(lane.unit, b.stage.position)].filter (· ∈ b.started) =
      [(lane.unit, b.stage.position)] := List.filter_cons_of_pos (by simpa using hmem)
  rw [InSequence, hdelivered] at h
  rw [InSequence, hstarted, hsettled, List.filter_append]
  show _ = (b.settled.filter _ ++ [(lane.unit, b.stage.position)].filter _) ++ _
  rw [hfilter, List.append_assoc]
  exact h

/-- With one place, every step of a build keeps the sequence. -/
theorem step (h : b.InSequence) (hone : rules.capacity = 1) (hlineup : Lineup rules.units stages)
    (hsound : b.Sound rules stages) (haccounted : b.Accounted stages) (hstep : Step rules b b') :
    b'.InSequence := by
  cases hstep with
  | idle => exact h
  | advance hstep =>
    cases hstep with
    | onward _ => exact h
    | @refuse id _ _ _ hposition _ =>
      have hturn : b.TurnsTo (id, b.stage.position) := ⟨_, _, hposition, rfl⟩
      have hnot := h.notMem_started hlineup haccounted (hturn.mem_outstanding hsound)
      exact h.refuse hnot _ _
    | @start id _ _ hposition _ _ _ =>
      have hturn : b.TurnsTo (id, b.stage.position) := ⟨_, _, hposition, rfl⟩
      exact h.start (hturn.notMem_settled hlineup hsound haccounted) _ _
    | record _ hdelivered => exact h.record hdelivered
    | enter hposition _ =>
      obtain ⟨hworking, hdelivered⟩ := List.append_eq_nil_iff.1 (hsound.ended hposition).1
      refine h.of_eq rfl rfl ?_
      simp [BuildRun.enter, hworking, List.map_eq_nil_iff.1 hdelivered]
  | act hworking hnext =>
    refine h.of_eq (started_act hnext _) rfl ?_
    simp [note, hworking]
  | @deliver pre post lane hworking _ _ =>
    -- the lane that delivers its result is the only one that works
    have hle := hsound.working_le hone
    rw [hworking, List.length_append, List.length_cons] at hle
    obtain rfl := List.length_eq_zero_iff.1 (show pre.length = 0 by omega)
    obtain rfl := List.length_eq_zero_iff.1 (show post.length = 0 by omega)
    refine h.of_eq rfl rfl ?_
    simp [hworking]
  | release hdelivered =>
    refine h.of_eq rfl rfl ?_
    simp [hdelivered]

end InSequence

end BuildRun

end PhasedBuild
